import IotCamera.Ts.ClockReference

/-!
# Which lengths are safe

The length of a frame is an `int` that the entry point does not check. It becomes
the unsigned count of a copy out of the caller's buffer and into an array of one
mebibyte; the video path copies once more, with four subtracted. Every copy of a
call stays inside its objects exactly when the length lies between zero and one
mebibyte and, for video, is not below four. A negative length is a huge count,
and so is a video length below four after the subtraction.
-/

namespace IotCamera.Lengths

open Memory Packet Pes Mux Frames Steps

/-- The buffer holds as many bytes as the length asks for, none if it is negative,
and the length is an `int`. -/
structure Supplied (call : Call) : Prop where
  held : call.pData.length = call.iDataSize.toNat
  above : -2 ^ 31 ≤ call.iDataSize
  below : call.iDataSize < 2 ^ 31

/-- A length that the branch of its stream can copy. -/
def Copyable (call : Call) : Prop :=
  (call.iStreamType = 0 → 0 ≤ call.iDataSize ∧ call.iDataSize ≤ 1024 * 1024) ∧
    (call.iStreamType = 1 → 4 ≤ call.iDataSize ∧ call.iDataSize ≤ 1024 * 1024)

instance (call : Call) : Decidable (Copyable call) := inferInstanceAs (Decidable (_ ∧ _))

/-- No copy of the call leaves its objects. -/
def CopiesInside (session : TspkgSession) (call : Call) : Prop :=
  ∀ stopped, writeBuf2TsFile session call ≠ .error (.outOfBounds, stopped)

/-- An `int` outside an array is an unsigned count outside it. -/
theorem unsigned_outside (length : Int) (capacity : Nat) (above : -2 ^ 31 ≤ length)
    (below : length < 2 ^ 31) (small : capacity < 2 ^ 31)
    (outside : length < 0 ∨ (capacity : Int) < length) : capacity < unsigned length := by
  unfold unsigned
  omega

/-- The audio copy leaves its array for any other length. -/
theorem aac2_pes_outside (tsaacpes : TsPes) (adudiopts : Word) (pData : List Byte) (iDataSize : Int)
    (above : -2 ^ 31 ≤ iDataSize) (below : iDataSize < 2 ^ 31)
    (outside : iDataSize < 0 ∨ 1024 * 1024 < iDataSize) :
    aac2Pes tsaacpes adudiopts pData iDataSize = .error .outOfBounds := by
  have beyond : maxOneFrameSize < unsigned iDataSize :=
    unsigned_outside iDataSize maxOneFrameSize above below (by decide) outside
  have copy := Block.memcpy_outside tsaacpes.es 0 (Block.ofBytes pData) 0 (unsigned iDataSize)
    (by omega)
  simp only [aac2Pes, copy, bind, Except.bind]

/-- One of the two copies of the video path leaves its array for any other length. -/
theorem get_annexb_nalu_outside (nalu : Nalu maxVideoTagBufSize) (pData : List Byte)
    (iDataSize : Int) (held : pData.length = iDataSize.toNat) (above : -2 ^ 31 ≤ iDataSize)
    (below : iDataSize < 2 ^ 31) (outside : iDataSize < 4 ∨ 1024 * 1024 < iDataSize) :
    getAnnexbNalu nalu pData iDataSize = .error .outOfBounds := by
  by_cases first : iDataSize < 0 ∨ 1024 * 1024 < iDataSize
  · have beyond : maxVideoTagBufSize < unsigned iDataSize :=
      unsigned_outside iDataSize maxVideoTagBufSize above below (by decide) first
    have copy := Block.memcpy_outside (Block.uniform maxVideoTagBufSize 0) 0 (Block.ofBytes pData) 0
      (unsigned iDataSize) (by omega)
    simp only [getAnnexbNalu, copy, bind, Except.bind]
  · have size : unsigned iDataSize = iDataSize.toNat := by
      unfold unsigned
      omega
    -- the whole buffer is copied; four subtracted from its length is negative
    have beyond : maxVideoTagBufSize < unsigned (iDataSize - 4) :=
      unsigned_outside (iDataSize - 4) maxVideoTagBufSize (by omega) (by omega) (by decide)
        (by omega)
    have room : iDataSize.toNat ≤ maxVideoTagBufSize := by
      rw [maxVideoTagBufSize]
      omega
    obtain ⟨buf, copied, _⟩ := Block.memcpy_inside (Block.uniform maxVideoTagBufSize 0) 0
      (Block.ofBytes pData) 0 (unsigned iDataSize) (by omega) (by omega)
    have copy := Block.memcpy_outside nalu.buf 0 buf 4 (unsigned (iDataSize - 4)) (by omega)
    simp only [getAnnexbNalu, copied, copy, bind, Except.bind]

/-- A length that cannot be copied stops the call at once. -/
theorem not_copyable_stops (session : TspkgSession) (call : Call) (supplied : Supplied call)
    (refused : ¬ Copyable call) :
    writeBuf2TsFile session call = .error (.outOfBounds, session) := by
  obtain ⟨held, above, below⟩ := supplied
  by_cases audio : call.iStreamType = 0
  · have outside : call.iDataSize < 0 ∨ 1024 * 1024 < call.iDataSize := by
      unfold Copyable at refused
      omega
    have stopped := aac2_pes_outside session.mAudioTspes session.timestampAudio call.pData
      call.iDataSize above below outside
    have one : (0x01 : Word) ≠ 0x00 := by decide
    simp only [writeBuf2TsFile, audio, ↓reduceIte, writeAudio, takeOutPes, one, stopped, bind,
      Except.bind]
  · have video : call.iStreamType = 1 := by
      unfold Copyable at refused
      omega
    have outside : call.iDataSize < 4 ∨ 1024 * 1024 < call.iDataSize := by
      unfold Copyable at refused
      omega
    have stopped := get_annexb_nalu_outside (allocNalu maxVideoTagBufSize) call.pData
      call.iDataSize held above below outside
    simp only [writeBuf2TsFile, video, one_ne_zero, ↓reduceIte, writeVideo, takeOutPes, h2642Pes,
      readOneH264Frame, stopped, bind, Except.bind]

/-- For every stream type and every `int` length, the copies of a call stay inside
the caller's buffer and the arrays exactly when the length is copyable. Stream
types other than audio and video copy nothing. -/
theorem copies_inside_iff (session : TspkgSession) (call : Call) (supplied : Supplied call) :
    CopiesInside session call ↔ Copyable call := by
  constructor
  · intro inside
    by_contra refused
    exact inside session (not_copyable_stops session call supplied refused)
  · intro copyable stopped halted
    by_cases branch : call.iStreamType = 0 ∨ call.iStreamType = 1
    · have size : 0 ≤ call.iDataSize ∧ call.iDataSize ≤ 1024 * 1024 := by
        unfold Copyable at copyable
        omega
      have held := supplied.held
      have bounds : InBounds call := by
        refine ⟨by omega, by rw [maxOneFrameSize]; omega, ?_⟩
        intro video
        have start := (copyable.2 video).1
        omega
      have cause : Fault.outOfBounds = Fault.divisionByZero :=
        call_stops session call bounds _ halted
      cases cause
    · simp only [not_or] at branch
      simp only [writeBuf2TsFile, branch, ↓reduceIte] at halted
      cases halted

/-- A video frame of five bytes. -/
theorem copies_inside_idr :
    CopiesInside (ClockReference.clockedSession 0) ⟨25, 40, 1, [0x00, 0x00, 0x00, 0x01, 0x65], 5⟩ ↔
      Copyable ⟨25, 40, 1, [0x00, 0x00, 0x00, 0x01, 0x65], 5⟩ :=
  copies_inside_iff (ClockReference.clockedSession 0) _ ⟨rfl, by decide, by decide⟩

/-- A video frame of three bytes, shorter than the start code that is cut off, and
an audio frame of negative length. -/
theorem short_lengths_leave_arrays :
    ¬ CopiesInside (ClockReference.clockedSession 0) ⟨25, 40, 1, [0x00, 0x00, 0x01], 3⟩ ∧
      ¬ CopiesInside (ClockReference.clockedSession 0) ⟨8000, 40, 0, [], -1⟩ := by
  constructor
  · intro inside
    exact inside _ (not_copyable_stops _ _ ⟨rfl, by decide, by decide⟩ (by decide))
  · intro inside
    exact inside _ (not_copyable_stops _ _ ⟨rfl, by decide, by decide⟩ (by decide))

end IotCamera.Lengths
