import IotCamera.Adec.Stream

/-!
# Audio messages of any length

`extractStreamPacket` looks at the second byte of a message before it knows that
there is one, copies two bytes of a configuration message into `flvadst`, and copies
whatever an audio message holds behind the header into the buffer of the packet. A
message that is too short for a read, or too long for the buffer, is a fault. What
`debug_buf` prints of a message are its own bytes.

A step takes one message from the queue: successive calls together take the messages one
after the other, and each audio message ends a call.
-/

namespace IotCamera.Adec

open Memory

/-- The state between two messages, with the packets that calls have returned. -/
structure Calls where
  extractor : Extractor
  delivered : List AudioStream

/-- One message. A configuration keeps the call waiting; a packet ends it. -/
def Calls.step (calls : Calls) (message : Message) : Except (Fault × Calls) Calls :=
  match takeMessage calls.extractor message with
  | .ok (.configuration _) => .ok calls
  | .ok (.packet next) => .ok ⟨next, calls.delivered ++ [next.pStreamInfo]⟩
  | .error fault => .error (fault, calls)

/-- The first seven bytes of a packet are those that `AddADTS` writes for its length,
whatever stood there before. -/
def Headed (packet : AudioStream) : Prop :=
  ∀ temp, packet.pStream.bytes ADTS_HEADER_SIZE = (AddADTS packet.mLen temp).bytes ADTS_HEADER_SIZE

/-- A packet that holds a message's frame begins with the frame's header. -/
theorem carries_headed (message : Message) (sized : message.Sized) (packet : AudioStream)
    (length : packet.mLen.toNat = message.dlen.toNat + 5)
    (bytes : packet.bytes = frame message.payload) : Headed packet := by
  intro temp
  have whole := payload_length message sized
  have most := sized.2
  have size : BitVec.ofNat 32 (ADTS_HEADER_SIZE + message.payload.length) = packet.mLen := by
    rw [whole, ← length, BitVec.ofNat_toNat, BitVec.setWidth_eq]
  have first : (packet.bytes).take ADTS_HEADER_SIZE = packet.pStream.bytes ADTS_HEADER_SIZE := by
    have apart : packet.mLen.toNat = ADTS_HEADER_SIZE + message.payload.length := by omega
    rw [AudioStream.bytes, Block.bytes, apart, ← Buffers.slice_append]
    exact List.take_left' (Buffers.slice_length _ _ _)
  rw [← first, bytes, frame, size, add_adts_fits packet.mLen temp (by omega)]
  rfl

/-- Every packet that a message becomes begins with its header. -/
theorem take_headed (extractor : Extractor) (message : Message) (next : Extractor)
    (taken : takeMessage extractor message = .ok (.packet next)) : Headed next.pStreamInfo := by
  obtain ⟨long, -, short⟩ := (take_contained_iff extractor message).mp ⟨_, taken⟩
  by_cases configuration : message.data 1 = 0
  · rw [take_configuration extractor message long configuration] at taken
    cases copied : (Block.uniform 2 0).memcpy 0 (⟨message.data⟩ : Block message.dlen.toNat) 2 2 <;>
      rw [copied] at taken <;> cases taken
  · have sized : message.Sized := ⟨long, short configuration⟩
    obtain ⟨same, put, -, -, -, -, length, bytes⟩ := put_packet_frame extractor message sized
    rw [take_audio extractor message long configuration, put] at taken
    cases taken
    exact carries_headed message sized _ length bytes

/-- A contained message keeps every packet that was returned headed. -/
theorem step_contained (calls : Calls) (message : Message) (contained : message.Contained) :
    ∃ next, calls.step message = .ok next ∧
      ((∀ packet ∈ calls.delivered, Headed packet) → ∀ packet ∈ next.delivered, Headed packet) := by
  obtain ⟨taken, returned⟩ := (take_contained_iff calls.extractor message).mpr contained
  cases taken with
  | configuration flvadst => exact ⟨calls, by rw [Calls.step, returned], id⟩
  | packet next =>
    refine ⟨⟨next, calls.delivered ++ [next.pStreamInfo]⟩, by rw [Calls.step, returned], ?_⟩
    intro headed packet member
    cases List.mem_append.mp member with
    | inl earlier => exact headed packet earlier
    | inr last =>
      obtain rfl := List.mem_singleton.mp last
      exact take_headed calls.extractor message next returned

/-- A step returns, and keeps every packet headed, exactly for a contained message. -/
theorem step_contained_iff (calls : Calls) (message : Message)
    (headed : ∀ packet ∈ calls.delivered, Headed packet) :
    (∃ next, calls.step message = .ok next ∧ ∀ packet ∈ next.delivered, Headed packet) ↔
      message.Contained := by
  constructor
  · rintro ⟨next, returned, -⟩
    rw [← take_contained_iff calls.extractor message]
    cases taken : takeMessage calls.extractor message with
    | ok result => exact ⟨result, rfl⟩
    | error fault =>
      rw [Calls.step, taken] at returned
      cases returned
  · intro contained
    obtain ⟨next, returned, kept⟩ := step_contained calls message contained
    exact ⟨next, returned, kept headed⟩

/-- Whatever messages are taken, one after the other: the calls read only inside the
messages and write only inside the buffer, and every packet begins with a header for its
length, exactly when each message is contained. -/
theorem messages_contained_iff (extractor : Extractor) (messages : List Message) :
    (∀ earlier, earlier <+: messages →
      ∃ after, Runs.run Calls.step ⟨extractor, []⟩ earlier = .ok after ∧
        ∀ packet ∈ after.delivered, Headed packet) ↔
      ∀ message ∈ messages, message.Contained := by
  rw [Runs.run_returns_iff (fun _ message => message.Contained) _ step_contained_iff
    (⟨extractor, []⟩ : Calls) messages (fun _ none => absurd none List.not_mem_nil)]
  apply Runs.meets_inputs_iff
  · exact fun _ _ => Iff.rfl
  · intro calls message contained
    obtain ⟨next, returned, -⟩ := step_contained calls message contained
    exact ⟨next, returned⟩

/-- An audio message of 4092 bytes, far below the limit of RTMP, does not fit the buffer
behind its header, and an empty one has no second byte. -/
theorem long_and_empty_messages_fault :
    (∃ calls, Runs.run Calls.step ⟨.init, []⟩ [⟨fun _ => 1, 4092⟩] = .error (.outOfBounds, calls)) ∧
      ∃ calls, Runs.run Calls.step ⟨.init, []⟩ [⟨fun _ => 1, 0⟩] = .error (.outOfBounds, calls) := by
  have long := put_packet_oversized .init ⟨fun _ => 1, 4092⟩ (by decide) (by decide)
  have taken := take_audio .init ⟨fun _ => 1, 4092⟩ (by decide) (by decide)
  rw [long] at taken
  have empty := take_short .init ⟨fun _ => 1, 0⟩ (by decide)
  refine ⟨⟨⟨.init, []⟩, ?_⟩, ⟨⟨.init, []⟩, ?_⟩⟩
  · apply Runs.run_error
    simp only [Calls.step, taken]
    rfl
  · apply Runs.run_error
    simp only [Calls.step, empty]

end IotCamera.Adec
