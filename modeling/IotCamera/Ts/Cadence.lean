import IotCamera.Ts.Steps

/-!
# How often the tables are sent

The source asks for one association and one map table every forty packets. What
a receiver should see is a schedule: before each elementary packet whose number
is a multiple of forty, one of each table, and none anywhere else.

The muxer's checks compare a counter and not the packet's number, and the two
stay together only while each packet is counted once, in 32 bits. A check made
twice sends the tables twice when they are due, and the path for a frame in one
packet makes none. A call keeps in step when none of this happens in it, and a
run of such calls keeps the schedule.
-/

namespace IotCamera.Cadence

open Memory Packet Pes Mux Sends Plan Packetisation Frames Steps

/-- The kinds of packet a receiver tells apart. -/
inductive Kind where
  | pat
  | pmt
  | elementary
  deriving DecidableEq, Repr

/-- The kind of an identifier. -/
def kindOf (pid : Word) : Kind :=
  if pid = tsPatPid then .pat else if pid = tsPmtPid then .pmt else .elementary

/-- The tables in front of the elementary packet of a number. -/
def tables (number : Nat) : List Kind := if number % 40 = 0 then [.pat, .pmt] else []

/-- `count` elementary packets from a number on, with their tables. -/
def schedule : Nat → Nat → List Kind
  | _, 0 => []
  | number, count + 1 => tables number ++ .elementary :: schedule (number + 1) count

/-- What was received is the schedule from the first packet on. -/
def Cadenced (received : List (List Byte)) : Prop :=
  ∃ count, received.map (fun packet => kindOf (Demux.pid packet)) = schedule 0 count

/-- A schedule in two parts goes on where the first one stopped. -/
theorem schedule_append (number count more : Nat) :
    schedule number (count + more) = schedule number count ++ schedule (number + count) more := by
  induction count generalizing number with
  | zero => simp [schedule]
  | succ count inductionHypothesis =>
    rw [Nat.add_right_comm, schedule, schedule, inductionHypothesis, List.append_assoc,
      List.cons_append, show number + (count + 1) = number + 1 + count by omega]

/-- A receiver sees the kinds of the sends. -/
theorem stamp_kinds (sends : List Send) (senders : ∀ send ∈ sends, Known send.pid)
    (counter : ContinuityCounter) :
    (stamp counter sends).map (fun packet => kindOf (Demux.pid packet)) =
      sends.map (fun send => kindOf send.pid) := by
  induction sends generalizing counter with
  | nil => rfl
  | cons send rest inductionHypothesis =>
    have following := inductionHypothesis
      (fun other member => senders other (List.mem_cons_of_mem send member))
      (counter.advance send.pid)
    simp only [stamp, List.map_cons, following,
      packet_pid send counter (senders send List.mem_cons_self)]

/-- Slots in step with the schedule: each is counted once, and tables that are
due are checked for once. -/
def Regular : Nat → List Slot → Prop
  | _, [] => True
  | number, slot :: rest =>
    slot.counted = 1 ∧ (number % 40 = 0 → slot.checks = 1) ∧ Regular (number + 1) rest

/-- A packet of a stream is no table. -/
theorem elementary_kind (pid : Word) (elementary : Elementary pid) :
    kindOf pid = .elementary := by
  rcases elementary with rfl | rfl <;> rfl

/-- Regular slots weave into the schedule, as long as the counter does not wrap. -/
theorem weave_schedule (pid : Word) (elementary : Elementary pid) (slots : List Slot)
    (under : ∀ slot ∈ slots, slot.send.pid = pid) (written : Word)
    (room : written.toNat + slots.length < 2 ^ 32) (regular : Regular written.toNat slots) :
    (weave written slots).map (fun send => kindOf send.pid) =
      schedule written.toNat slots.length := by
  induction slots generalizing written with
  | nil => rfl
  | cons slot rest inductionHypothesis =>
    obtain ⟨once, checked, following⟩ := regular
    simp only [List.length_cons] at room
    have next : (written + BitVec.ofNat 32 slot.counted).toNat = written.toNat + 1 := by
      rw [once, BitVec.toNat_add, BitVec.toNat_ofNat]
      omega
    have later := inductionHypothesis
      (fun other member => under other (List.mem_cons_of_mem slot member))
      (written + BitVec.ofNat 32 slot.counted) (by omega) (next ▸ following)
    have front : ((List.replicate slot.checks (due written)).flatten).map
        (fun send => kindOf send.pid) = tables written.toNat := by
      have same : written % 40 = 0 ↔ written.toNat % 40 = 0 := by
        rw [← BitVec.toNat_inj, BitVec.toNat_umod]
        rfl
      by_cases turn : written.toNat % 40 = 0
      · simp only [checked turn, due, same.mpr turn, tables, turn, ↓reduceIte]
        rfl
      · have quiet : written % 40 ≠ 0 := fun zero => turn (same.mp zero)
        simp only [due, quiet, tables, turn, ↓reduceIte, List.flatten_replicate_nil, List.map_nil]
    rw [weave, List.map_append, front, List.map_cons, later, next, List.length_cons, schedule,
      under slot List.mem_cons_self, elementary_kind pid elementary]

/-- Regular slots are counted once each. -/
theorem regular_counted (number : Nat) (slots : List Slot) (regular : Regular number slots) :
    counted slots = slots.length := by
  induction slots generalizing number with
  | nil => rfl
  | cons slot rest inductionHypothesis =>
    obtain ⟨once, _, following⟩ := regular
    have later := inductionHypothesis (number + 1) following
    simp only [counted, List.map_cons, List.sum_cons, List.length_cons, once] at later ⊢
    omega

/-- The loop stays in step when it ends on a full packet, or on one of 182 bytes
whose number is not a multiple of forty. -/
theorem neaf_slots_regular (es : Nat → Byte) (pid : Word) (fuel neafBuf beyond number : Nat)
    (enough : beyond ≤ fuel)
    (ending : beyond % 184 = 0 ∨ beyond % 184 = 182 ∧ (number + beyond / 184) % 40 ≠ 0) :
    Regular number (neafSlots es pid fuel neafBuf beyond) ∧
      (neafSlots es pid fuel neafBuf beyond).length = (beyond + 183) / 184 := by
  induction fuel generalizing neafBuf beyond number with
  | zero =>
    have finished : beyond = 0 := by omega
    simp [neafSlots, finished, Regular]
  | succ fuel inductionHypothesis =>
    by_cases finished : beyond = 0
    · simp [neafSlots, finished, Regular]
    by_cases full : 184 ≤ beyond
    · obtain ⟨regular, length⟩ := inductionHypothesis (neafBuf + 184) (beyond - 184) (number + 1)
        (by omega) (by omega)
      simp only [neafSlots, finished, full, ↓reduceIte]
      refine ⟨⟨rfl, fun _ => rfl, regular⟩, ?_⟩
      rw [List.length_cons, length]
      omega
    · have exact182 : beyond = 182 := by omega
      subst exact182
      have quiet : number % 40 ≠ 0 := by omega
      simp only [neafSlots, finished, full, ↓reduceIte, or_true]
      cases fuel with
      | zero => exact ⟨⟨rfl, fun turn => absurd turn quiet, trivial⟩, rfl⟩
      | succ fuel => exact ⟨⟨rfl, fun turn => absurd turn quiet, trivial⟩, rfl⟩

/-- The payload room of a call's first packet when the frame needs several. -/
def roomOf (call : Call) : Nat := if IsSlice call then 162 else 168

/-- The room of a first packet depends on the call only. -/
theorem room_of_head (session : TspkgSession) (call : Call) :
    firstPacketLoadLength (headOf session call) = roomOf call := by
  unfold headOf roomOf
  split <;> rfl

/-- The elementary packets of a call's frame. -/
def packetsOf (call : Call) : Nat := 1 + (call.pData.length - roomOf call + 183) / 184

/-- The call leaves the counter below its wrap, and its tables are due only
where one check is made: a frame in one packet is not due at all, and behind the
first packet of several come full packets and at most one of 182 bytes, not due
either. In particular no stuffed packet follows a first one. -/
def InStep (session : TspkgSession) (call : Call) : Prop :=
  Carries call →
    let written := session.writePacketNum.toNat
    let rest := call.pData.length - roomOf call
    written + packetsOf call < 2 ^ 32 ∧
      if call.pData.length < roomOf call then written % 40 ≠ 0
      else rest % 184 = 0 ∨ rest % 184 = 182 ∧ (written + 1 + rest / 184) % 40 ≠ 0

instance (session : TspkgSession) (call : Call) : Decidable (InStep session call) :=
  inferInstanceAs (Decidable (Carries call → _))

/-- The slots of a call in step are regular. -/
theorem in_step_regular (session : TspkgSession) (call : Call) (frame : Frame)
    (belongs : Belongs session call frame) (carries : Carries call)
    (inStep : InStep session call) :
    Regular session.writePacketNum.toNat frame.slots ∧ frame.slots.length = packetsOf call := by
  obtain ⟨_, layout⟩ := inStep carries
  have room : firstPacketLoadLength frame.head = roomOf call := by
    rw [belongs.head, room_of_head]
  by_cases short : call.pData.length < roomOf call
  · simp only [short, ↓reduceIte] at layout
    have single : frame.tspes.pesPacketLengthBeyond < firstPacketLoadLength frame.head := by
      rw [belongs.length, room]
      exact short
    simp only [Frame.slots, frameSlots, single, ↓reduceDIte]
    refine ⟨⟨rfl, fun turn => absurd turn layout, trivial⟩, ?_⟩
    simp only [packetsOf, List.length_cons, List.length_nil]
    omega
  · simp only [short, ↓reduceIte] at layout
    have several : ¬ frame.tspes.pesPacketLengthBeyond < firstPacketLoadLength frame.head := by
      rw [belongs.length, room]
      exact short
    obtain ⟨regular, length⟩ := neaf_slots_regular frame.tspes.es.cell frame.pid
      (call.pData.length - roomOf call) (roomOf call) (call.pData.length - roomOf call)
      (session.writePacketNum.toNat + 1) (Nat.le_refl _) layout
    rw [Frame.slots, frameSlots, dif_neg several]
    simp only [belongs.length, room]
    refine ⟨⟨rfl, fun _ => rfl, regular⟩, ?_⟩
    rw [List.length_cons, length, packetsOf]
    omega

/-- The schedule as an invariant: as many elementary packets have been received
as the counter says. -/
def Scheduled (session : TspkgSession) : Prop :=
  session.writets = true ∧
    session.received.map (fun packet => kindOf (Demux.pid packet)) =
      schedule 0 session.writePacketNum.toNat

/-- A call in step keeps the schedule, also when a clock stops it. -/
theorem call_scheduled (session : TspkgSession) (call : Call) (scheduled : Scheduled session)
    (allowed : InBounds call ∧ InStep session call) :
    Scheduled (Runs.last (writeBuf2TsFile session call)) := by
  obtain ⟨callback, received⟩ := scheduled
  obtain ⟨bounds, inStep⟩ := allowed
  by_cases carries : Carries call
  · obtain ⟨frame, video, audio, belongs, sent⟩ := carrying_call session call bounds carries
    obtain ⟨_, _, _, kept⟩ := advance_clock_kept (sentBy session frame video audio) call
    obtain ⟨regular, length⟩ := in_step_regular session call frame belongs carries inStep
    have room : session.writePacketNum.toNat + frame.slots.length < 2 ^ 32 :=
      length ▸ (inStep carries).1
    have counter : (session.writePacketNum + BitVec.ofNat 32 (counted frame.slots)).toNat =
        session.writePacketNum.toNat + frame.slots.length := by
      rw [regular_counted _ _ regular, BitVec.toNat_add, BitVec.toNat_ofNat]
      omega
    rw [sent, kept]
    refine ⟨callback, ?_⟩
    simp only [sentBy, delivered, callback, ↓reduceIte, List.map_append, received, counter]
    rw [stamp_kinds _ (frame.known session.writePacketNum),
      weave_schedule frame.pid frame.elementary frame.slots frame.under _ room regular,
      schedule_append, Nat.zero_add]
  · obtain ⟨audio, quiet⟩ := quiet_call session call bounds carries
    rw [quiet]
    exact ⟨callback, received⟩

/-- From a new session, every run whose calls all keep in step has the tables
exactly where the schedule puts them, at each point of the run. -/
theorem cadence_in_step (counter : ContinuityCounter) (video audio : TsPes) (calls : List Call)
    (met : Runs.Meets writeBuf2TsFile (fun session call => InBounds call ∧ InStep session call)
      (TspkgSession.created counter video audio) calls) (earlier : List Call)
    (within : earlier <+: calls) :
    Cadenced (Runs.last (Runs.run writeBuf2TsFile (TspkgSession.created counter video audio)
      earlier)).received := by
  have scheduled := Runs.run_invariant _ Scheduled call_scheduled
    (TspkgSession.created counter video audio) earlier ⟨rfl, rfl⟩
    (Runs.meets_prefix _ _ earlier calls within met)
  exact ⟨_, scheduled.2⟩

/-- An audio frame of a first and a full packet, then a parameter set in one
packet, whose number is two. -/
theorem cadence_in_step_audio :
    let vacant := fillPes (Block.uniform maxOneFrameSize 0) tsH264StreamId 0 0
    let audio : Call := ⟨8000, 0, 0, List.replicate 352 0x55, 352⟩
    let sps : Call := ⟨25, 0, 1, [0x00, 0x00, 0x00, 0x01, 0x67, 0x42], 6⟩
    Cadenced (Runs.last (Runs.run writeBuf2TsFile
      (TspkgSession.created ⟨0, 0, 0, 0⟩ vacant vacant) [audio, sps])).received :=
  cadence_in_step _ _ _ _ (by decide +kernel) _ (List.prefix_refl _)

/-- A new session whose first frame fits in one packet sends it without tables. -/
theorem first_frame_without_tables :
    let vacant := fillPes (Block.uniform maxOneFrameSize 0) tsH264StreamId 0 0
    let sps : Call := ⟨25, 0, 1, [0x00, 0x00, 0x00, 0x01, 0x67, 0x42], 6⟩
    ¬ Cadenced (Runs.last (Runs.run writeBuf2TsFile
      (TspkgSession.created ⟨0, 0, 0, 0⟩ vacant vacant) [sps])).received := by
  rintro vacant sps ⟨count, same⟩
  have kinds : (Runs.last (Runs.run writeBuf2TsFile
      (TspkgSession.created ⟨0, 0, 0, 0⟩ vacant vacant) [sps])).received.map
        (fun packet => kindOf (Demux.pid packet)) = [.elementary] := by decide +kernel
  rw [kinds] at same
  cases count <;> simp [schedule, tables] at same

end IotCamera.Cadence
