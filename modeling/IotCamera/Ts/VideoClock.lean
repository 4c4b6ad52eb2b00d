import IotCamera.Ts.ClockReference

/-!
# The video clock

After each slice the clock is advanced twice: by the caller's frame rate, and
once more by a rate computed from the time since the last slice. The second rate
is a quotient in whole frames per second. It divides by zero when two slices
have the same time, and it is itself zero when they lie more than a second
apart. So a run returns exactly when every slice comes between one and a
thousand milliseconds after the one before it, and a run at an even rate stamps
its slices at twice the speed of the 90 kHz clock.
-/

namespace IotCamera.VideoClock

open Memory Packet Pes Mux Sends Plan Packetisation Frames Steps ClockReference

/-- Two slice times that the clock can be advanced between. -/
def Apart (earlier later : Word) : Prop :=
  1 ≤ (later - earlier).toNat ∧ (later - earlier).toNat ≤ 1000

instance (earlier later : Word) : Decidable (Apart earlier later) :=
  inferInstanceAs (Decidable (_ ∧ _))

/-- What one slice adds to the clock. -/
def ticks (framerate since : Word) : Word := 1000 * 90 / framerate + 1000 * 90 / (1000 / since)

/-- Both divisors of the second rate are non-zero exactly for times apart. -/
theorem apart_iff (earlier later : Word) :
    Apart earlier later ↔ later - earlier ≠ 0 ∧ 1000 / (later - earlier) ≠ (0 : Word) := by
  unfold Apart
  generalize later - earlier = since
  have quotient : (1000 / since : Word).toNat = 1000 / since.toNat := BitVec.toNat_udiv
  have zero : (0 : Word).toNat = 0 := rfl
  rw [ne_eq, ne_eq, ← BitVec.toNat_inj, ← BitVec.toNat_inj, quotient, zero, Nat.div_eq_zero_iff]
  omega

/-- When two times are apart the clock advances by the ticks between them. -/
theorem advance_video_clock_apart (session : TspkgSession) (framerate pts : Word)
    (rate : framerate ≠ 0) (apart : Apart session.pts pts) :
    advanceVideoClock session framerate pts =
      .ok { session with
        timestampVideo := session.timestampVideo + ticks framerate (pts - session.pts)
        pts := pts } := by
  obtain ⟨first, second⟩ := (apart_iff session.pts pts).mp apart
  simp only [advanceVideoClock, divide, rate, first, second, ↓reduceIte, ticks, BitVec.add_assoc]

/-- Any other pair of times stops the clock, and so does a zero frame rate. -/
theorem advance_video_clock_returns (session next : TspkgSession) (framerate pts : Word)
    (returned : advanceVideoClock session framerate pts = .ok next) :
    framerate ≠ 0 ∧ Apart session.pts pts := by
  rw [apart_iff]
  by_cases rate : framerate = 0
  · simp only [advanceVideoClock, divide, rate, ↓reduceIte] at returned
    cases returned
  by_cases first : pts - session.pts = 0
  · simp only [advanceVideoClock, divide, rate, first, ↓reduceIte] at returned
    cases returned
  by_cases second : 1000 / (pts - session.pts) = 0
  · simp only [advanceVideoClock, divide, rate, first, second, ↓reduceIte] at returned
    cases returned
  · exact ⟨rate, first, second⟩

/-- A call that returns: a slice has advanced the clock and set the last time,
and any other call has left both alone. -/
theorem call_clock (session next : TspkgSession) (call : Call) (bounds : InBounds call)
    (returned : writeBuf2TsFile session call = .ok next) :
    next.writets = session.writets ∧
      if IsSlice call then
        Apart session.pts call.pts ∧ next.pts = call.pts ∧
          next.timestampVideo =
            session.timestampVideo + ticks call.framerate (call.pts - session.pts)
      else next.pts = session.pts ∧ next.timestampVideo = session.timestampVideo := by
  by_cases carries : Carries call
  · obtain ⟨frame, video, audio, _, sent⟩ := carrying_call session call bounds carries
    rw [sent, advanceClock] at returned
    by_cases sound : call.iStreamType = 0
    · have other : ¬ IsSlice call := by simp [IsSlice, sound]
      rw [if_pos sound, advanceAudioClock] at returned
      split at returned
      · cases returned
      · rw [← Except.ok.inj returned, if_neg other]
        exact ⟨rfl, rfl, rfl⟩
    by_cases slice : IsSlice call
    · rw [if_neg sound, if_pos slice] at returned
      obtain ⟨rate, apart⟩ := advance_video_clock_returns _ _ _ _ returned
      rw [advance_video_clock_apart _ _ _ rate apart] at returned
      rw [← Except.ok.inj returned, if_pos slice]
      exact ⟨rfl, apart, rfl, rfl⟩
    · rw [if_neg sound, if_neg slice] at returned
      rw [← Except.ok.inj returned, if_neg slice]
      exact ⟨rfl, rfl, rfl⟩
  · obtain ⟨audio, quiet⟩ := quiet_call session call bounds carries
    have other : ¬ IsSlice call := fun slice => carries (slice_carries call bounds slice)
    rw [quiet] at returned
    rw [← Except.ok.inj returned, if_neg other]
    exact ⟨rfl, rfl, rfl⟩

/-- A slice at a positive frame rate returns when the times are apart. -/
theorem slice_returns (session : TspkgSession) (call : Call) (bounds : InBounds call)
    (slice : IsSlice call) (rate : call.framerate ≠ 0) (apart : Apart session.pts call.pts) :
    ∃ next, writeBuf2TsFile session call = .ok next := by
  obtain ⟨frame, video, audio, _, sent⟩ := carrying_call session call bounds
    (slice_carries call bounds slice)
  have sound : call.iStreamType ≠ 0 := by simp [slice.1]
  rw [sent, advanceClock, if_neg sound, if_pos slice]
  exact ⟨_, advance_video_clock_apart _ _ _ rate apart⟩

/-- Every slice comes between one and a thousand milliseconds after the slice
before it; the first one, after the given time. -/
def Spaced : Word → List Call → Prop
  | _, [] => True
  | before, call :: rest =>
    if IsSlice call then Apart before call.pts ∧ Spaced call.pts rest else Spaced before rest

instance decidableSpaced : (before : Word) → (calls : List Call) → Decidable (Spaced before calls)
  | _, [] => isTrue trivial
  | before, call :: rest =>
    have := decidableSpaced call.pts rest
    have := decidableSpaced before rest
    inferInstanceAs (Decidable (if IsSlice call then _ else _))

/-- A run at positive frame rates returns exactly when its slices are spaced. The
last slice's time is carried through the run by
every call that is not a slice. -/
theorem run_returns_iff_spaced (session : TspkgSession) (calls : List Call)
    (bounds : ∀ call ∈ calls, InBounds call) (rates : ∀ call ∈ calls, call.framerate ≠ 0) :
    (∃ after, Runs.run writeBuf2TsFile session calls = .ok after) ↔ Spaced session.pts calls := by
  induction calls generalizing session with
  | nil => exact iff_of_true ⟨session, rfl⟩ trivial
  | cons call rest inductionHypothesis =>
    have bound := bounds call List.mem_cons_self
    have rate := rates call List.mem_cons_self
    have later := fun next => inductionHypothesis next
      (fun other member => bounds other (List.mem_cons_of_mem call member))
      (fun other member => rates other (List.mem_cons_of_mem call member))
    cases outcome : writeBuf2TsFile session call with
    | ok next =>
      rw [Runs.run_ok session next call rest outcome, later next, Spaced]
      have clock := (call_clock session next call bound outcome).2
      by_cases slice : IsSlice call
      · rw [if_pos slice] at clock ⊢
        rw [clock.2.1]
        exact ⟨fun spaced => ⟨clock.1, spaced⟩, fun spaced => spaced.2⟩
      · rw [if_neg slice] at clock ⊢
        rw [clock.1]
    | error stop =>
      rw [Runs.run_error session call rest stop outcome, Spaced]
      by_cases slice : IsSlice call
      · rw [if_pos slice]
        refine iff_of_false (fun ⟨_, impossible⟩ => by cases impossible) ?_
        rintro ⟨apart, _⟩
        obtain ⟨next, returned⟩ := slice_returns session call bound slice rate apart
        rw [returned] at outcome
        cases outcome
      · obtain ⟨next, returned⟩ := steady_call session call bound rate slice
        rw [returned] at outcome
        cases outcome

/-- From a session that has seen no slice, no division of a run at positive frame
rates has a zero divisor exactly when its slices are spaced: neither at the same
time nor more than a second apart, counting the first one from zero. -/
theorem divisors_nonzero_iff_spaced (session : TspkgSession) (initial : session.pts = 0)
    (calls : List Call) (bounds : ∀ call ∈ calls, InBounds call)
    (rates : ∀ call ∈ calls, call.framerate ≠ 0) :
    (∀ stopped, Runs.run writeBuf2TsFile session calls ≠ .error (.divisionByZero, stopped)) ↔
      Spaced 0 calls := by
  rw [← initial, ← run_returns_iff_spaced session calls bounds rates]
  constructor
  · intro never
    rcases run_outcome session calls bounds with returned | ⟨stopped, halted⟩
    · exact returned
    · exact absurd halted (never stopped)
  · rintro ⟨after, returned⟩ stopped halted
    rw [returned] at halted
    cases halted

/-- A slice of seven bytes at a time, at 25 frames per second. -/
def sliceAt (pts : Word) : Call := ⟨25, pts, 1, [0x00, 0x00, 0x00, 0x01, 0x65, 0x88, 0x80], 7⟩

/-- Three slices forty milliseconds apart. -/
theorem divisors_nonzero_even :
    Spaced 0 [sliceAt 40, sliceAt 80, sliceAt 120] ∧
      ∀ stopped, Runs.run writeBuf2TsFile (clockedSession 0)
        [sliceAt 40, sliceAt 80, sliceAt 120] ≠ .error (.divisionByZero, stopped) :=
  ⟨by decide +kernel, (divisors_nonzero_iff_spaced (clockedSession 0) rfl
    [sliceAt 40, sliceAt 80, sliceAt 120] (by decide) (by decide)).mpr (by decide +kernel)⟩

/-- Two slices at the same time, and two slices 1001 milliseconds apart, stop the
clock. -/
theorem equal_times_divide_by_zero :
    (∃ stopped, Runs.run writeBuf2TsFile (clockedSession 0) [sliceAt 40, sliceAt 40] =
      .error (.divisionByZero, stopped)) ∧
    ∃ stopped, Runs.run writeBuf2TsFile (clockedSession 0) [sliceAt 40, sliceAt 1041] =
      .error (.divisionByZero, stopped) := by
  have stops : ∀ calls, (∀ call ∈ calls, InBounds call) → (∀ call ∈ calls, call.framerate ≠ 0) →
      ¬ Spaced 0 calls → ∃ stopped, Runs.run writeBuf2TsFile (clockedSession 0) calls =
        .error (.divisionByZero, stopped) := by
    intro calls bounds rates crowded
    rcases run_outcome (clockedSession 0) calls bounds with returned | halted
    · exact absurd ((run_returns_iff_spaced _ calls bounds rates).mp returned) crowded
    · exact halted
  exact ⟨stops _ (by decide) (by decide) (by decide +kernel),
    stops _ (by decide) (by decide) (by decide +kernel)⟩

/-- The time stamp of the first video packet among some packets. -/
def firstStamp (packets : List (List Byte)) : Option (BitVec 33) :=
  (packets.filter (Demux.pid · = tsH264Pid)).head?.bind Demux.pts

/-- The stamps a receiver reads along a run, one for each slice: the stamp of the
first video packet among those the slice's call has added. -/
def stamps : TspkgSession → List Call → List (Option (BitVec 33))
  | _, [] => []
  | session, call :: rest =>
    let outcome := writeBuf2TsFile session call
    let added := (Runs.last outcome).received.drop session.received.length
    (if IsSlice call then [firstStamp added] else []) ++
      match outcome with
      | .ok next => stamps next rest
      | .error _ => []

/-- The clock before each of some slices. -/
def clocks : Word → Word → List Call → List Word
  | _, _, [] => []
  | clock, before, slice :: rest =>
    clock :: clocks (clock + ticks slice.framerate (slice.pts - before)) slice.pts rest

/-- A slice is stamped with the clock as it stands before it, in one packet or in
several. -/
theorem slice_stamp (session : TspkgSession) (call : Call) (bounds : InBounds call)
    (slice : IsSlice call) (callback : session.writets = true) :
    firstStamp ((Runs.last (writeBuf2TsFile session call)).received.drop session.received.length) =
      some (session.timestampVideo.setWidth 33) := by
  obtain ⟨frame, belongs, received⟩ := carrying_received session call bounds
    (slice_carries call bounds slice) callback
  have video : frame.pid = tsH264Pid := by simp [belongs.pid, slice.1]
  have stamp : frame.pts = session.timestampVideo := by simp [belongs.pts, slice.1]
  obtain ⟨packet, others, found, time⟩ := first_stamped frame session.continuityCounter
    session.writePacketNum
  rw [video] at found
  rw [received, List.drop_left, firstStamp, found]
  simpa [stamp] using time

/-- The stamps of a run that returns are the clocks of its slices: calls that are
not slices leave the clock alone. -/
theorem stamps_clocks (session after : TspkgSession) (calls : List Call)
    (bounds : ∀ call ∈ calls, InBounds call) (callback : session.writets = true)
    (returned : Runs.run writeBuf2TsFile session calls = .ok after) :
    stamps session calls = (clocks session.timestampVideo session.pts
      (calls.filter IsSlice)).map fun clock => some (clock.setWidth 33) := by
  induction calls generalizing session with
  | nil => rfl
  | cons call rest inductionHypothesis =>
    have bound := bounds call List.mem_cons_self
    cases outcome : writeBuf2TsFile session call with
    | error stop =>
      rw [Runs.run_error session call rest stop outcome] at returned
      cases returned
    | ok next =>
      rw [Runs.run_ok session next call rest outcome] at returned
      obtain ⟨kept, clock⟩ := call_clock session next call bound outcome
      have later := inductionHypothesis next
        (fun other member => bounds other (List.mem_cons_of_mem call member))
        (kept.trans callback) returned
      by_cases slice : IsSlice call
      · rw [if_pos slice] at clock
        have first := slice_stamp session call bound slice callback
        rw [outcome] at first
        simp only [stamps, slice, ↓reduceIte, first, outcome, later, List.filter_cons, decide_true,
          clocks, clock.2.1, clock.2.2]
        rfl
      · rw [if_neg slice] at clock
        simp only [stamps, slice, ↓reduceIte, outcome, later, List.filter_cons, decide_false,
          Bool.false_eq_true, clock.1, clock.2, List.nil_append]

/-- At an even rate a slice adds its step twice. -/
theorem even_ticks (d : Nat) (divides : d ∣ 1000) :
    ticks (BitVec.ofNat 32 (1000 / d)) (BitVec.ofNat 32 d) = BitVec.ofNat 32 (180 * d) := by
  obtain ⟨rate, product⟩ := divides
  have positive : 0 < d ∧ 0 < rate := by
    refine ⟨Nat.pos_of_ne_zero ?_, Nat.pos_of_ne_zero ?_⟩ <;> rintro rfl <;> simp at product
  have small : d ≤ 1000 ∧ rate ≤ 1000 :=
    ⟨product ▸ Nat.le_mul_of_pos_right d positive.2, product ▸ Nat.le_mul_of_pos_left rate positive.1⟩
  have quotient : 1000 / d = rate := Nat.div_eq_of_eq_mul_right positive.1 product
  have step : (1000 * 90 : Word) / BitVec.ofNat 32 rate = BitVec.ofNat 32 (90 * d) := by
    apply BitVec.eq_of_toNat_eq
    rw [BitVec.toNat_udiv, BitVec.toNat_ofNat, BitVec.toNat_ofNat,
      show (1000 * 90 : Word).toNat = 90 * 1000 from rfl, product,
      Nat.mod_eq_of_lt (show rate < 2 ^ 32 by omega),
      Nat.mod_eq_of_lt (show 90 * d < 2 ^ 32 by omega), ← Nat.mul_assoc,
      Nat.mul_div_cancel _ positive.2]
  have rates : (1000 : Word) / BitVec.ofNat 32 d = BitVec.ofNat 32 rate := by
    apply BitVec.eq_of_toNat_eq
    rw [BitVec.toNat_udiv, BitVec.toNat_ofNat, BitVec.toNat_ofNat,
      show (1000 : Word).toNat = 1000 from rfl, Nat.mod_eq_of_lt (show d < 2 ^ 32 by omega),
      Nat.mod_eq_of_lt (show rate < 2 ^ 32 by omega), quotient]
  rw [ticks, quotient, rates, step, ← BitVec.ofNat_add, show 90 * d + 90 * d = 180 * d by omega]

/-- Slices at an even rate, each the same time after the one before it. -/
structure Even (d : Nat) (slices : List Call) : Prop where
  rates : ∀ slice ∈ slices, slice.framerate = BitVec.ofNat 32 (1000 / d)
  times : (slices.map Call.pts).IsChain fun earlier later => later = earlier + BitVec.ofNat 32 d

/-- The clocks of even slices that go on from a time grow by the doubled step. -/
theorem even_clocks (d : Nat) (divides : d ∣ 1000) (slices : List Call) (clock before : Word)
    (rates : ∀ slice ∈ slices, slice.framerate = BitVec.ofNat 32 (1000 / d))
    (times : (before :: slices.map Call.pts).IsChain fun earlier later =>
      later = earlier + BitVec.ofNat 32 d) (index : Nat) (inside : index < slices.length) :
    (clocks clock before slices)[index]? = some (clock + BitVec.ofNat 32 (180 * d * index)) := by
  induction slices generalizing clock before index with
  | nil => simp at inside
  | cons slice rest inductionHypothesis =>
    cases index with
    | zero => simp [clocks]
    | succ index =>
      rw [List.map_cons, List.isChain_cons_cons] at times
      obtain ⟨step, following⟩ := times
      have since : slice.pts - before = BitVec.ofNat 32 d := by
        rw [step, BitVec.add_comm, BitVec.add_sub_cancel]
      rw [clocks, List.getElem?_cons_succ, inductionHypothesis _ _
        (fun other member => rates other (List.mem_cons_of_mem slice member)) following index
        (by simpa using inside), rates slice List.mem_cons_self, since, even_ticks d divides,
        BitVec.add_assoc, ← BitVec.ofNat_add, show 180 * d + 180 * d * index = 180 * d * (index + 1)
          by rw [Nat.mul_succ, Nat.add_comm]]

/-- An advance by twice a step is an advance by the step only where the step
itself vanishes. -/
theorem doubled_steps_iff (clock : Word) (near far step : Nat) (doubled : far = near + 2 * step) :
    ((clock + BitVec.ofNat 32 far).setWidth 33 : BitVec 33).toNat % 2 ^ 32 =
        (((clock + BitVec.ofNat 32 near).setWidth 33 : BitVec 33).toNat + step) % 2 ^ 32 ↔
      2 ^ 32 ∣ step := by
  rw [BitVec.toNat_setWidth_of_le (by decide), BitVec.toNat_setWidth_of_le (by decide),
    BitVec.toNat_add, BitVec.toNat_add, BitVec.toNat_ofNat, BitVec.toNat_ofNat]
  omega

/-- The slice `n` positions behind another is stamped `90 * d * n` later. -/
def Keeps90kHz (session : TspkgSession) (calls : List Call) (d n index : Nat) : Prop :=
  ∃ earlier later, (stamps session calls)[index]? = some (some earlier) ∧
    (stamps session calls)[index + n]? = some (some later) ∧
    later.toNat % 2 ^ 32 = (earlier.toNat + 90 * d * n) % 2 ^ 32

/-- Behind the first slice of an even run the stamps grow twice as fast, so they
keep the 90 kHz clock exactly where its advance is a multiple of the wrap. -/
theorem keeps_90khz_iff (session after : TspkgSession) (calls : List Call) (d n index : Nat)
    (callback : session.writets = true) (divides : d ∣ 1000)
    (bounds : ∀ call ∈ calls, InBounds call)
    (returned : Runs.run writeBuf2TsFile session calls = .ok after)
    (even : Even d (calls.filter IsSlice)) (behind : 1 ≤ index)
    (inside : index + n < (calls.filter IsSlice).length) :
    Keeps90kHz session calls d n index ↔ 2 ^ 32 ∣ 90 * d * n := by
  have stamped := stamps_clocks session after calls bounds callback returned
  generalize calls.filter IsSlice = slices at even inside stamped
  obtain ⟨rates, times⟩ := even
  obtain ⟨index, rfl⟩ : ∃ position, index = position + 1 := ⟨index - 1, by omega⟩
  cases slices with
  | nil => simp at inside
  | cons first rest =>
    rw [List.length_cons] at inside
    set clock := session.timestampVideo + ticks first.framerate (first.pts - session.pts)
    have read : ∀ position < rest.length, (stamps session calls)[position + 1]? =
        some (some ((clock + BitVec.ofNat 32 (180 * d * position)).setWidth 33)) := by
      intro position within
      rw [stamped, clocks, List.map_cons, List.getElem?_cons_succ, List.getElem?_map,
        even_clocks d divides rest clock first.pts
          (fun other member => rates other (List.mem_cons_of_mem first member)) times position
          within]
      rfl
    have earlier := read index (by omega)
    have later := read (index + n) (by omega)
    rw [show index + n + 1 = index + 1 + n by omega] at later
    have doubled : 180 * d * (index + n) = 180 * d * index + 2 * (90 * d * n) := by
      rw [Nat.mul_add, ← Nat.mul_assoc 2, ← Nat.mul_assoc 2]
    constructor
    · rintro ⟨_, _, before, behind, same⟩
      obtain rfl := Option.some.inj (Option.some.inj (earlier.symm.trans before))
      obtain rfl := Option.some.inj (Option.some.inj (later.symm.trans behind))
      exact (doubled_steps_iff clock _ _ _ doubled).mp same
    · intro wraps
      exact ⟨_, _, earlier, later, (doubled_steps_iff clock _ _ _ doubled).mpr wraps⟩

/-- A parameter set of six bytes. -/
def sps : Call := ⟨25, 0, 1, [0x00, 0x00, 0x00, 0x01, 0x67, 0x42], 6⟩

/-- Slices forty milliseconds apart with a parameter set in between: the last one
keeps the 90 kHz clock only if 3600 ticks were a whole wrap. -/
theorem keeps_90khz_forty :
    Keeps90kHz (clockedSession 0) [sliceAt 40, sliceAt 80, sps, sliceAt 120] 40 1 1 ↔
      2 ^ 32 ∣ 90 * 40 * 1 := by
  have bounds : ∀ call ∈ [sliceAt 40, sliceAt 80, sps, sliceAt 120], InBounds call := by decide
  obtain ⟨after, returned⟩ := (run_returns_iff_spaced (clockedSession 0)
    [sliceAt 40, sliceAt 80, sps, sliceAt 120] bounds (by decide)).mpr (by decide +kernel)
  have slices : [sliceAt 40, sliceAt 80, sps, sliceAt 120].filter IsSlice =
      [sliceAt 40, sliceAt 80, sliceAt 120] := by decide +kernel
  exact keeps_90khz_iff (clockedSession 0) after [sliceAt 40, sliceAt 80, sps, sliceAt 120] 40 1 1
    rfl (by decide) bounds returned (slices ▸ ⟨by decide, by decide⟩) (by decide)
    (by rw [slices]; decide)

/-- In that run the third slice is 7200 ticks behind the second, not 3600. -/
theorem stamps_run_twice_as_fast :
    ¬ Keeps90kHz (clockedSession 0) [sliceAt 40, sliceAt 80, sps, sliceAt 120] 40 1 1 := by
  rintro ⟨earlier, later, first, second, same⟩
  have read : stamps (clockedSession 0) [sliceAt 40, sliceAt 80, sps, sliceAt 120] =
      [some 0, some 7200, some 14400] := by decide +kernel
  rw [read] at first second
  obtain rfl : (7200 : BitVec 33) = earlier := by simpa using first
  obtain rfl : (14400 : BitVec 33) = later := by simpa using second
  exact absurd same (by decide)

end IotCamera.VideoClock
