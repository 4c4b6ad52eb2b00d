import IotCamera.Rtmp.Amf0
import Mathlib.Data.List.TakeDrop

/-!
# The receive buffer

`SrsFastBuffer` reads from the socket whatever has arrived, as far as there is space, and
hands out slices of it. When the space behind the bytes is too small they are moved to the
front. However the bytes arrive, what is still unread in the buffer and in the socket is
one stream, from whose front the slices are taken.
-/

namespace IotCamera.Rtmp.Stack

open Codecs

/-- What a receiving or sending function gives up with. -/
inductive Failure where
  | ERROR_SOCKET_READ
  | ERROR_READER_BUFFER_OVERFLOW
  | ERROR_RTMP_CHUNK_START
  | ERROR_RTMP_PACKET_SIZE
  | ERROR_RTMP_CHUNK_SIZE
  | ERROR_RTMP_MESSAGE_DECODE
  | ERROR_RTMP_MESSAGE_ENCODE
  | amf0 (failure : Amf0.Failure)
  /-- A `srs_assert` that does not hold ends the program. -/
  | assertion
  /-- A copy or a pointer leaves its memory. -/
  | outOfBounds
  /-- The bound on the model's loop is used up. -/
  | exhausted
  deriving DecidableEq, Repr

/-- A `SrsFastBuffer`: the bytes from its start up to `p`, and those from `p` up to `end`. -/
structure FastBuffer where
  nbBuffer : Nat
  before : List Byte
  ahead : List Byte
  fits : before.length + ahead.length ≤ nbBuffer

def SRS_DEFAULT_RECV_BUFFER_SIZE : Nat := 131072

/-- `SrsFastBuffer()`. -/
def FastBuffer.fresh : FastBuffer := ⟨SRS_DEFAULT_RECV_BUFFER_SIZE, [], [], Nat.zero_le _⟩

/-- The pieces in which bytes arrive at the socket, and how many bytes were read from it. -/
structure Socket where
  arrivals : List (List Byte)
  recvBytes : Nat
  deriving DecidableEq

/-- What has arrived first, as far as there is space for it. An empty piece is no arrival,
and where nothing is to come any more the read fails. -/
def receive (space : Nat) : List (List Byte) → Option (List Byte × List (List Byte))
  | [] => none
  | [] :: rest => receive space rest
  | (first :: piece) :: rest => some ((first :: piece).take space, (first :: piece).drop space :: rest)

namespace FastBuffer

def nbFreeSpace (buffer : FastBuffer) : Nat := buffer.nbBuffer - (buffer.before.length + buffer.ahead.length)

/-- The bytes are moved to the start of the buffer. -/
def move (buffer : FastBuffer) : FastBuffer where
  nbBuffer := buffer.nbBuffer
  before := []
  ahead := buffer.ahead
  fits := by
    have fits := buffer.fits
    rw [List.length_nil]
    omega

/-- What `grow` does when the space behind the bytes is too small: an empty buffer starts
again, another one is moved when there is something in front of its bytes. -/
def makeSpace (buffer : FastBuffer) : FastBuffer :=
  if buffer.ahead.length = 0 then buffer.move
  else if buffer.ahead.length < buffer.nbBuffer ∧ 0 < buffer.before.length then buffer.move
  else buffer

/-- Bytes from the socket are put behind the others. -/
def append (buffer : FastBuffer) (bytes : List Byte) : FastBuffer where
  nbBuffer := buffer.nbBuffer
  before := buffer.before
  ahead := buffer.ahead ++ bytes.take buffer.nbFreeSpace
  fits := by
    have fits := buffer.fits
    have taken : (bytes.take buffer.nbFreeSpace).length ≤ buffer.nbFreeSpace := List.length_take_le _ _
    have space : buffer.nbFreeSpace = buffer.nbBuffer - (buffer.before.length + buffer.ahead.length) := rfl
    rw [List.length_append]
    omega

end FastBuffer

/-- A buffer and the socket it is filled from. -/
structure Input where
  buffer : FastBuffer
  socket : Socket

namespace Input

/-- What is still to be read, wherever it is. -/
def unread (input : Input) : List Byte := input.buffer.ahead ++ input.socket.arrivals.flatten

/-- The loop that reads until there are as many bytes as required; every round brings one. -/
def readMore (required : Nat) : Nat → Input → Except Failure Input
  | 0, input => if input.buffer.ahead.length < required then .error .exhausted else .ok input
  | rounds + 1, input =>
      if input.buffer.ahead.length < required then
        match receive input.buffer.nbFreeSpace input.socket.arrivals with
        | none => .error .ERROR_SOCKET_READ
        | some (bytes, arrivals) =>
            readMore required rounds
              ⟨input.buffer.append bytes, arrivals, input.socket.recvBytes + bytes.length⟩
      else
        .ok input

/-- `SrsFastBuffer::grow`. -/
def grow (required : Nat) (input : Input) : Except Failure Input :=
  if required ≤ input.buffer.ahead.length then
    .ok input
  else
    let buffer :=
      if input.buffer.nbFreeSpace < required - input.buffer.ahead.length then input.buffer.makeSpace
      else input.buffer
    if buffer.nbFreeSpace < required - buffer.ahead.length then
      .error .ERROR_READER_BUFFER_OVERFLOW
    else
      readMore required required ⟨buffer, input.socket⟩

/-- `SrsFastBuffer::read_slice`, and with one byte `SrsFastBuffer::read_1byte`. -/
def readSlice (size : Nat) (input : Input) : Except Failure (List Byte × Input) :=
  if enough : size ≤ input.buffer.ahead.length then
    .ok (input.buffer.ahead.take size,
      { input with
        buffer :=
          { nbBuffer := input.buffer.nbBuffer
            before := input.buffer.before ++ input.buffer.ahead.take size
            ahead := input.buffer.ahead.drop size
            fits := by
              have fits := input.buffer.fits
              rw [List.length_append, List.length_take, List.length_drop]
              omega } })
  else
    .error .assertion

/-- `SrsFastBuffer::skip` over the last `count` bytes, back to where they begin. -/
def skipBack (count : Nat) (input : Input) : Except Failure Input :=
  if enough : count ≤ input.buffer.before.length then
    .ok { input with
      buffer :=
        { nbBuffer := input.buffer.nbBuffer
          before := input.buffer.before.take (input.buffer.before.length - count)
          ahead := input.buffer.before.drop (input.buffer.before.length - count) ++ input.buffer.ahead
          fits := by
            have fits := input.buffer.fits
            rw [List.length_append, List.length_take, List.length_drop]
            omega } }
  else
    .error .assertion

/-! ### One stream -/

/-- Moving the bytes to the front leaves all the room behind them free. -/
theorem move_space (buffer : FastBuffer) :
    buffer.move.nbFreeSpace = buffer.nbBuffer - buffer.ahead.length := by
  simp [FastBuffer.nbFreeSpace, FastBuffer.move]

/-- After space was made there is all the space that the unread bytes leave. -/
theorem make_space (buffer : FastBuffer) : buffer.makeSpace.nbBuffer = buffer.nbBuffer ∧
    buffer.makeSpace.ahead = buffer.ahead ∧
    buffer.makeSpace.nbFreeSpace = buffer.nbBuffer - buffer.ahead.length := by
  unfold FastBuffer.makeSpace
  split
  · exact ⟨rfl, rfl, move_space buffer⟩
  split
  · exact ⟨rfl, rfl, move_space buffer⟩
  case isFalse some none =>
    refine ⟨rfl, rfl, ?_⟩
    have fits := buffer.fits
    unfold FastBuffer.nbFreeSpace
    omega

/-- The bytes that are received are the first of those that have arrived. -/
theorem receive_front (space : Nat) (positive : 0 < space) (arrivals : List (List Byte)) :
    (receive space arrivals = none ∧ arrivals.flatten = []) ∨
      ∃ bytes rest, receive space arrivals = some (bytes, rest) ∧ arrivals.flatten = bytes ++ rest.flatten ∧
        0 < bytes.length ∧ bytes.length ≤ space := by
  induction arrivals with
  | nil => exact .inl ⟨rfl, rfl⟩
  | cons piece rest inductionHypothesis =>
      cases piece with
      | nil => simpa [receive] using inductionHypothesis
      | cons first piece =>
          refine .inr ⟨_, _, rfl, ?_, ?_, List.length_take_le _ _⟩
          · rw [List.flatten_cons, List.flatten_cons, ← List.append_assoc, List.take_append_drop]
          · rw [List.length_take, List.length_cons]
            omega

/-- The loop reads as many bytes as required when as many are to come. -/
theorem read_more_spec (required rounds : Nat) (input : Input)
    (enough : required - input.buffer.ahead.length ≤ rounds)
    (space : required ≤ input.buffer.ahead.length + input.buffer.nbFreeSpace) :
    if required ≤ input.unread.length then
      ∃ after, readMore required rounds input = .ok after ∧ after.unread = input.unread ∧
        after.buffer.nbBuffer = input.buffer.nbBuffer ∧ required ≤ after.buffer.ahead.length
    else
      readMore required rounds input = .error .ERROR_SOCKET_READ := by
  induction rounds generalizing input with
  | zero =>
      have there : ¬ input.buffer.ahead.length < required := by omega
      have all : required ≤ input.unread.length := by
        rw [unread, List.length_append]
        omega
      rw [if_pos all, readMore, if_neg there]
      exact ⟨input, rfl, rfl, rfl, by omega⟩
  | succ rounds inductionHypothesis =>
      rw [readMore]
      by_cases more : input.buffer.ahead.length < required
      case neg =>
        have all : required ≤ input.unread.length := by
          rw [unread, List.length_append]
          omega
        rw [if_pos all, if_neg more]
        exact ⟨input, rfl, rfl, rfl, by omega⟩
      rw [if_pos more]
      have positive : 0 < input.buffer.nbFreeSpace := by omega
      obtain ⟨none, empty⟩ | ⟨bytes, rest, some, parts, gained, short⟩ :=
        receive_front input.buffer.nbFreeSpace positive input.socket.arrivals
      · have few : ¬ required ≤ input.unread.length := by
          rw [unread, empty, List.append_nil]
          omega
        rw [if_neg few, none]
      rw [some]
      have whole : bytes.take input.buffer.nbFreeSpace = bytes := List.take_of_length_le short
      have after := inductionHypothesis
        ⟨input.buffer.append bytes, rest, input.socket.recvBytes + bytes.length⟩
      have ahead : (input.buffer.append bytes).ahead = input.buffer.ahead ++ bytes :=
        congrArg (input.buffer.ahead ++ ·) whole
      have stream : unread ⟨input.buffer.append bytes, rest, input.socket.recvBytes + bytes.length⟩ =
          input.unread := by
        rw [unread, unread, ahead, parts, List.append_assoc]
      rw [stream] at after
      have fits := input.buffer.fits
      have left : (input.buffer.append bytes).nbFreeSpace = input.buffer.nbFreeSpace - bytes.length := by
        change input.buffer.nbBuffer - (input.buffer.before.length + (input.buffer.append bytes).ahead.length) =
          input.buffer.nbBuffer - (input.buffer.before.length + input.buffer.ahead.length) - bytes.length
        rw [ahead, List.length_append]
        omega
      apply after
      · rw [ahead, List.length_append]
        omega
      · rw [ahead, left, List.length_append]
        omega

/-- What a buffer of the size can hold is got from the stream, which stays as it is; for more
bytes than it can hold, or than are to come, there is an error. -/
theorem grow_spec (required : Nat) (input : Input) :
    (∃ after, grow required input = .ok after ∧ after.unread = input.unread ∧
      after.buffer.nbBuffer = input.buffer.nbBuffer ∧ required ≤ after.buffer.ahead.length) ∨
    (grow required input = .error .ERROR_READER_BUFFER_OVERFLOW ∧ input.buffer.nbBuffer < required) ∨
    (grow required input = .error .ERROR_SOCKET_READ ∧ input.unread.length < required) := by
  unfold grow
  split
  case isTrue enough => exact .inl ⟨input, rfl, rfl, rfl, enough⟩
  case isFalse few =>
    have fits := input.buffer.fits
    generalize made : (if input.buffer.nbFreeSpace < required - input.buffer.ahead.length then
      input.buffer.makeSpace else input.buffer) = buffer
    have same : buffer.nbBuffer = input.buffer.nbBuffer ∧ buffer.ahead = input.buffer.ahead ∧
        (buffer.nbFreeSpace < required - buffer.ahead.length ↔ input.buffer.nbBuffer < required) := by
      subst made
      split
      case isTrue =>
        obtain ⟨size, ahead, space⟩ := make_space input.buffer
        refine ⟨size, ahead, ?_⟩
        rw [space, ahead]
        omega
      case isFalse room =>
        refine ⟨rfl, rfl, ?_⟩
        have space : input.buffer.nbFreeSpace =
            input.buffer.nbBuffer - (input.buffer.before.length + input.buffer.ahead.length) := rfl
        omega
    obtain ⟨size, ahead, overflow⟩ := same
    dsimp only
    by_cases large : input.buffer.nbBuffer < required
    · rw [if_pos (overflow.mpr large)]
      exact .inr (.inl ⟨rfl, large⟩)
    rw [if_neg (mt overflow.mp large)]
    have room := mt overflow.mp large
    have read := read_more_spec required required ⟨buffer, input.socket⟩ (by omega) (by
      rw [ahead] at room ⊢
      change required ≤ input.buffer.ahead.length + buffer.nbFreeSpace
      omega)
    have stream : unread ⟨buffer, input.socket⟩ = input.unread := by rw [unread, unread, ahead]
    rw [stream] at read
    split at read
    case isTrue =>
      obtain ⟨after, grown, unread, kept, enough⟩ := read
      exact .inl ⟨after, grown, unread, kept.trans size, enough⟩
    case isFalse short => exact .inr (.inr ⟨read, by omega⟩)

/-- A slice is the front of the stream. -/
theorem read_slice_spec (size : Nat) (input : Input) (enough : size ≤ input.buffer.ahead.length) :
    ∃ after, readSlice size input = .ok (input.unread.take size, after) ∧
      after.unread = input.unread.drop size ∧ after.buffer.nbBuffer = input.buffer.nbBuffer ∧
        (∃ back, skipBack size after = .ok back ∧ back.unread = input.unread ∧
          back.buffer.nbBuffer = input.buffer.nbBuffer) := by
  unfold readSlice
  rw [dif_pos enough]
  have front : input.unread.take size = input.buffer.ahead.take size := by
    rw [unread, List.take_append_of_le_length enough]
  rw [front]
  refine ⟨_, rfl, ?_, rfl, ?_⟩
  · rw [unread, unread, List.drop_append_of_le_length enough]
  · unfold skipBack
    have short : (input.buffer.ahead.take size).length = size := List.length_take_of_le enough
    have there : size ≤ (input.buffer.before ++ input.buffer.ahead.take size).length := by
      rw [List.length_append]
      omega
    rw [dif_pos there]
    refine ⟨_, rfl, ?_, rfl⟩
    have begins : (input.buffer.before ++ input.buffer.ahead.take size).length - size =
        input.buffer.before.length := by
      rw [List.length_append]
      omega
    rw [unread, unread]
    dsimp only
    rw [begins, List.drop_left, List.take_append_drop]

end Input

end IotCamera.Rtmp.Stack
