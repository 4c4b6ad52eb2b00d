import IotCamera.Base.Memory
import IotCamera.Base.Runs

/-!
# Frames of the encoder for the RTSP stream

`GetEncoderFrameThread` of `sample_rtsp.cpp` obtains a stream from the encoder, copies
its two parts into one static buffer, gives the stream back and appends the copy to
the media stream. The calls it makes are logged in order. What the encoder and the
media stream are is not modelled: the answers are arguments of a pass of the loop.

The lengths of the parts are unsigned and their sum wraps, so a second part can pass
the test for its size and leave the buffer. A stream whose first part is empty is
passed over, and the release that once followed for every stream is switched off.
-/

namespace IotCamera.Rtsp

open Memory

/-- `1920*1080*3`. -/
def MAX_FRAME_BUF_SiZE : Nat := 6220800

/-- The slice types that are told apart. -/
inductive H264EType where
  | islice
  | pslice
  | other
  deriving DecidableEq, Repr

/-- The kinds of data that are appended. -/
inductive FrameDataType where
  | I
  | P
  | HEADER
  deriving DecidableEq, Repr

/-- `VENC_PACK_S`: two parts, as the memory their pointers lead to and their lengths. -/
structure VencPack where
  mpAddr0 : Nat → Byte
  mpAddr1 : Nat → Byte
  mLen0 : Word
  mLen1 : Word
  mPTS : BitVec 64
  enH264EType : H264EType

/-- A call of the thread. -/
inductive Event where
  | getFailed
  | getStream
  | releaseStream
  | appendVideoData (data : List Byte) (pts : BitVec 64) (dataType : FrameDataType)
  deriving DecidableEq, Repr

/-- The static buffer and the calls so far. -/
structure Encoder where
  gStreamBuf : Block MAX_FRAME_BUF_SiZE
  events : List Event

/-- The answers in one pass of the loop: of `QG_MPI_VENC_GetStream`, with the pack it
fills; of `QG_MPI_VENC_GetH264SpsPpsInfo`; what is in the variable `frame_type` before
it is set, which a slice of another type leaves so; and whether the media stream
was created. -/
structure Pass where
  ret : Int
  mpPack : Option VencPack
  headInfo : List Byte
  frameType : Int
  gStream0 : Bool

/-- Copy the parts of a frame into the buffer, and its length if it is not too big. -/
def copyFrame (buf : Block MAX_FRAME_BUF_SiZE) (pack : VencPack) :
    Except Fault (Block MAX_FRAME_BUF_SiZE × Option Word) := do
  if pack.mLen0.toNat < MAX_FRAME_BUF_SiZE then
    let mpAddr0 : Block pack.mLen0.toNat := ⟨pack.mpAddr0⟩
    let buf ← buf.memcpy 0 mpAddr0 0 pack.mLen0.toNat
    if pack.mLen1 = 0 then return (buf, some pack.mLen0)
    else if (pack.mLen0 + pack.mLen1).toNat < MAX_FRAME_BUF_SiZE then
      let mpAddr1 : Block pack.mLen1.toNat := ⟨pack.mpAddr1⟩
      let buf ← buf.memcpy pack.mLen0.toNat mpAddr1 0 pack.mLen1.toNat
      return (buf, some (pack.mLen0 + pack.mLen1))
    else return (buf, none)
  else return (buf, none)

/-- What is appended of a frame, behind its header if it is an I frame. -/
def appendFrame (pass : Pass) (pack : VencPack) (data : List Byte) : List Event :=
  let frameType := match pack.enH264EType with
    | .islice => 1
    | .pslice => 0
    | .other => pass.frameType
  if pass.gStream0 then
    if frameType = 1 then
      [.appendVideoData pass.headInfo pack.mPTS .HEADER, .appendVideoData data pack.mPTS .I]
    else [.appendVideoData data pack.mPTS .P]
  else []

/-- One pass of the loop. A frame that is too big is given back and dropped. -/
def getEncoderFrame (encoder : Encoder) (pass : Pass) : Except (Fault × Encoder) Encoder :=
  if pass.ret < 0 then .ok { encoder with events := encoder.events ++ [.getFailed] }
  else
    let encoder := { encoder with events := encoder.events ++ [.getStream] }
    match pass.mpPack with
    | none => .ok encoder
    | some pack =>
      if pack.mLen0 = 0 then .ok encoder
      else
        match copyFrame encoder.gStreamBuf pack with
        | .error fault => .error (fault, encoder)
        | .ok (buf, none) => .ok ⟨buf, encoder.events ++ [.releaseStream]⟩
        | .ok (buf, some len) =>
          .ok ⟨buf, encoder.events ++ .releaseStream :: appendFrame pass pack (buf.bytes len.toNat)⟩

/-- The frame: its first part and then its second. -/
def VencPack.parts (pack : VencPack) : List Byte :=
  Buffers.slice pack.mpAddr0 0 pack.mLen0.toNat ++ Buffers.slice pack.mpAddr1 0 pack.mLen1.toNat

/-- The first part fits and the lengths do not wrap, or the first part is too big. -/
def VencPack.Adds (pack : VencPack) : Prop :=
  pack.mLen0.toNat < MAX_FRAME_BUF_SiZE → pack.mLen0.toNat + pack.mLen1.toNat < 2 ^ 32

/-- The copy of a first part that is not too big. -/
theorem first_part (buf : Block MAX_FRAME_BUF_SiZE) (pack : VencPack)
    (small : pack.mLen0.toNat < MAX_FRAME_BUF_SiZE) :
    ∃ copied, buf.memcpy 0 (⟨pack.mpAddr0⟩ : Block pack.mLen0.toNat) 0 pack.mLen0.toNat = .ok copied ∧
      copied.bytes pack.mLen0.toNat = Buffers.slice pack.mpAddr0 0 pack.mLen0.toNat := by
  obtain ⟨copied, called, placed, -⟩ := Block.memcpy_inside buf 0
    (⟨pack.mpAddr0⟩ : Block pack.mLen0.toNat) 0 pack.mLen0.toNat (by omega) (by omega)
  exact ⟨copied, called, Buffers.slice_congr _ _ 0 0 _ placed⟩

/-- The copy of a second part behind it, when both fit together. -/
theorem second_part (buf : Block MAX_FRAME_BUF_SiZE) (pack : VencPack)
    (before : buf.bytes pack.mLen0.toNat = Buffers.slice pack.mpAddr0 0 pack.mLen0.toNat)
    (small : pack.mLen0.toNat + pack.mLen1.toNat < MAX_FRAME_BUF_SiZE) :
    ∃ copied, buf.memcpy pack.mLen0.toNat (⟨pack.mpAddr1⟩ : Block pack.mLen1.toNat) 0
        pack.mLen1.toNat = .ok copied ∧
      copied.bytes (pack.mLen0.toNat + pack.mLen1.toNat) = pack.parts := by
  obtain ⟨copied, called, placed, kept⟩ := Block.memcpy_inside buf pack.mLen0.toNat
    (⟨pack.mpAddr1⟩ : Block pack.mLen1.toNat) 0 pack.mLen1.toNat (by omega) (by omega)
  refine ⟨copied, called, ?_⟩
  have front : Buffers.slice copied.cell 0 pack.mLen0.toNat = buf.bytes pack.mLen0.toNat :=
    Buffers.slice_congr _ _ 0 0 _ fun index inside => kept _ (Or.inl (by omega))
  have behind : Buffers.slice copied.cell (0 + pack.mLen0.toNat) pack.mLen1.toNat =
      Buffers.slice pack.mpAddr1 0 pack.mLen1.toNat :=
    Buffers.slice_congr _ _ _ 0 _ fun index inside => by
      rw [Nat.zero_add]
      exact placed index inside
  rw [Block.bytes, ← Buffers.slice_append, front, behind, before, VencPack.parts]

/-- When the lengths do not wrap, what is copied stays in the buffer, and it is the
frame unless it is too big. -/
theorem copy_frame_inside (buf : Block MAX_FRAME_BUF_SiZE) (pack : VencPack) (adds : pack.Adds) :
    ∃ copied len, copyFrame buf pack = .ok (copied, len) ∧
      ∀ size, len = some size → copied.bytes size.toNat = pack.parts := by
  unfold copyFrame
  by_cases small : pack.mLen0.toNat < MAX_FRAME_BUF_SiZE
  case neg => exact ⟨buf, none, if_neg small, fun _ impossible => by cases impossible⟩
  obtain ⟨first, called, copied⟩ := first_part buf pack small
  rw [if_pos small]
  dsimp only
  rw [called]
  by_cases alone : pack.mLen1 = 0
  · refine ⟨first, some pack.mLen0, ?_, ?_⟩
    · exact if_pos alone
    · rintro _ ⟨rfl⟩
      rw [VencPack.parts, alone]
      simpa using copied
  have sum : (pack.mLen0 + pack.mLen1).toNat = pack.mLen0.toNat + pack.mLen1.toNat := by
    rw [BitVec.toNat_add]
    exact Nat.mod_eq_of_lt (adds small)
  by_cases fits : (pack.mLen0 + pack.mLen1).toNat < MAX_FRAME_BUF_SiZE
  · obtain ⟨second, calledSecond, whole⟩ := second_part first pack copied (sum ▸ fits)
    refine ⟨second, some (pack.mLen0 + pack.mLen1), ?_, ?_⟩
    · simp only [bind, Except.bind, if_neg alone, if_pos fits, calledSecond]
      rfl
    · rintro _ ⟨rfl⟩
      rw [sum]
      exact whole
  · refine ⟨first, none, ?_, fun _ impossible => by cases impossible⟩
    simp only [bind, Except.bind, if_neg alone, if_neg fits]
    rfl

/-- When they wrap, the second part leaves the buffer. -/
theorem copy_frame_outside (buf : Block MAX_FRAME_BUF_SiZE) (pack : VencPack)
    (wraps : ¬ pack.Adds) : copyFrame buf pack = .error .outOfBounds := by
  obtain ⟨small, beyond⟩ : pack.mLen0.toNat < MAX_FRAME_BUF_SiZE ∧
      2 ^ 32 ≤ pack.mLen0.toNat + pack.mLen1.toNat := by
    simpa [VencPack.Adds] using wraps
  obtain ⟨first, called, -⟩ := first_part buf pack small
  have bound := pack.mLen1.isLt
  have some_second : pack.mLen1 ≠ 0 := by
    intro none
    rw [none] at beyond
    simp only [MAX_FRAME_BUF_SiZE] at small
    simp at beyond
    omega
  -- the wrapped sum is below the first length, so the test passes
  have passes : (pack.mLen0 + pack.mLen1).toNat < MAX_FRAME_BUF_SiZE := by
    rw [BitVec.toNat_add]
    omega
  have leaves := Block.memcpy_outside first pack.mLen0.toNat
    (⟨pack.mpAddr1⟩ : Block pack.mLen1.toNat) 0 pack.mLen1.toNat
    (by simp only [MAX_FRAME_BUF_SiZE]; omega)
  simp only [copyFrame, if_pos small, called, bind, Except.bind, if_neg some_second, if_pos passes,
    leaves]

/-- The pass returns, and a stream it obtained is released once, with no other obtained
meanwhile; what is appended as a frame is the frame. -/
def Returned (encoder : Encoder) (pass : Pass) : Prop :=
  ∃ after later, getEncoderFrame encoder pass = .ok after ∧ after.events = encoder.events ++ later ∧
    if pass.ret < 0 then later = [.getFailed]
    else ∃ rest, later = .getStream :: rest ∧ .getStream ∉ rest ∧ rest.count .releaseStream = 1 ∧
      ∀ data pts dataType, .appendVideoData data pts dataType ∈ rest → dataType ≠ .HEADER →
        ∃ pack, pass.mpPack = some pack ∧ data = pack.parts

/-- A stream that is obtained has a first part, and its lengths do not wrap. -/
def Pass.Sound (pass : Pass) : Prop :=
  0 ≤ pass.ret → ∃ pack, pass.mpPack = some pack ∧ pack.mLen0 ≠ 0 ∧ pack.Adds

/-- A pack is appended as a key frame behind its header, as another frame, or not at all. -/
theorem append_frame_cases (pass : Pass) (pack : VencPack) (data : List Byte) :
    appendFrame pass pack data = [] ∨
      appendFrame pass pack data =
        [.appendVideoData pass.headInfo pack.mPTS .HEADER, .appendVideoData data pack.mPTS .I] ∨
      appendFrame pass pack data = [.appendVideoData data pack.mPTS .P] := by
  unfold appendFrame
  dsimp only
  generalize (match pack.enH264EType with
    | .islice => 1
    | .pslice => 0
    | .other => pass.frameType : Int) = frameType
  split
  · split
    · exact Or.inr (Or.inl rfl)
    · exact Or.inr (Or.inr rfl)
  · exact Or.inl rfl

/-- What follows a release. -/
theorem append_frame_only (pass : Pass) (pack : VencPack) (data : List Byte) :
    .getStream ∉ appendFrame pass pack data ∧
      (appendFrame pass pack data).count .releaseStream = 0 ∧
      ∀ other pts dataType, .appendVideoData other pts dataType ∈ appendFrame pass pack data →
        dataType ≠ .HEADER → other = data := by
  rcases append_frame_cases pass pack data with none | iFrame | pFrame
  · simp [none]
  · rw [iFrame]
    refine ⟨by simp, by simp, ?_⟩
    intro other pts dataType member kind
    rcases List.mem_pair.mp member with header | frame
    · exact absurd (Event.appendVideoData.inj header).2.2 kind
    · exact (Event.appendVideoData.inj frame).1
  · rw [pFrame]
    refine ⟨by simp, by simp, ?_⟩
    intro other pts dataType member _
    exact (Event.appendVideoData.inj (List.mem_singleton.mp member)).1

/-- A pass with a sound stream gives it back. -/
theorem sound_returned (encoder : Encoder) (pass : Pass) (sound : pass.Sound) :
    Returned encoder pass := by
  by_cases failed : pass.ret < 0
  · refine ⟨_, [.getFailed], if_pos failed, rfl, ?_⟩
    rw [if_pos failed]
  obtain ⟨pack, given, nonempty, adds⟩ := sound (Int.not_lt.mp failed)
  obtain ⟨copied, len, called, whole⟩ := copy_frame_inside encoder.gStreamBuf pack adds
  cases len with
  | none =>
    refine ⟨⟨copied, encoder.events ++ [.getStream] ++ [.releaseStream]⟩, [.getStream, .releaseStream],
      ?_, by simp, ?_⟩
    · simp only [getEncoderFrame, if_neg failed, given, if_neg nonempty, called]
    · rw [if_neg failed]
      exact ⟨[.releaseStream], rfl, by simp, by simp, by simp⟩
  | some size =>
    obtain ⟨no_get, no_release, frame⟩ := append_frame_only pass pack (copied.bytes size.toNat)
    refine ⟨⟨copied, encoder.events ++ [.getStream] ++
        .releaseStream :: appendFrame pass pack (copied.bytes size.toNat)⟩,
      .getStream :: .releaseStream :: appendFrame pass pack (copied.bytes size.toNat), ?_, by simp, ?_⟩
    · simp only [getEncoderFrame, if_neg failed, given, if_neg nonempty, called]
    · rw [if_neg failed]
      refine ⟨_, rfl, ?_, ?_, ?_⟩
      · simpa using no_get
      · simp [no_release]
      · intro data pts dataType member kind
        have inside : .appendVideoData data pts dataType ∈
            appendFrame pass pack (copied.bytes size.toNat) := by simpa using member
        exact ⟨pack, given, (frame data pts dataType inside kind).trans (whole size rfl)⟩

/-- A pass that gives its stream back had a sound one. -/
theorem returned_sound (encoder : Encoder) (pass : Pass) (returned : Returned encoder pass) :
    pass.Sound := by
  intro obtained
  have failed : ¬ pass.ret < 0 := Int.not_lt.mpr obtained
  obtain ⟨after, later, called, logged, once⟩ := returned
  rw [if_neg failed] at once
  obtain ⟨rest, rfl, -, released, -⟩ := once
  -- without a release the log ends with the call that obtained the stream
  have dropped : ∀ buf, after ≠ ⟨buf, encoder.events ++ [.getStream]⟩ := by
    rintro buf rfl
    have empty : rest = [] := by simpa using logged
    rw [empty] at released
    simp at released
  cases given : pass.mpPack with
  | none =>
    simp only [getEncoderFrame, if_neg failed, given] at called
    exact absurd (Except.ok.inj called).symm (dropped _)
  | some pack =>
    have nonempty : pack.mLen0 ≠ 0 := by
      intro empty
      simp only [getEncoderFrame, if_neg failed, given, if_pos empty] at called
      exact absurd (Except.ok.inj called).symm (dropped _)
    refine ⟨pack, rfl, nonempty, ?_⟩
    by_contra wraps
    simp only [getEncoderFrame, if_neg failed, given, if_neg nonempty,
      copy_frame_outside _ pack wraps] at called
    cases called

/-- Every stream of a run is given back once, and every frame appended whole, exactly when
every stream that is obtained has a first part and lengths that do not wrap. -/
theorem streams_returned_iff (encoder : Encoder) (passes : List Pass) :
    Runs.Meets getEncoderFrame Returned encoder passes ↔ ∀ pass ∈ passes, pass.Sound := by
  apply Runs.meets_inputs_iff
  · intro before pass
    exact ⟨returned_sound before pass, sound_returned before pass⟩
  · intro before pass sound
    obtain ⟨after, _, called, -⟩ := sound_returned before pass sound
    exact ⟨after, called⟩

/-- A stream with an empty first part is never given back. -/
theorem empty_part_not_returned :
    ¬ Runs.Meets getEncoderFrame Returned ⟨.uniform _ 0, []⟩
      [⟨0, some ⟨fun _ => 0, fun _ => 0, 0, 16, 0, .pslice⟩, [], 0, true⟩] := by
  rintro ⟨returned, -⟩
  obtain ⟨pack, given, nonempty, -⟩ := returned_sound _ _ returned (by decide)
  obtain rfl := Option.some.inj given
  exact nonempty rfl

end IotCamera.Rtsp
