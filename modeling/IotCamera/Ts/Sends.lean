import IotCamera.Ts.Demux

/-!
# Packets as sends

A send is what one transport packet is made from apart from its continuity
counter: the identifier, the two header fields and the 184 bytes behind the
header. Sending stamps it with the counter of its identifier. A session that has
delivered a list of sends and counted some packets is given in closed form, and
delivering in two parts is delivering at once, so every writer of the muxer is
described by the sends it makes and the packets it counts.
-/

namespace IotCamera.Sends

open Memory Buffers Packet Mux

/-- One packet without its counter. The body fills the packet exactly. -/
structure Send where
  pid : Word
  playInit : Byte
  adaFieldC : Byte
  body : List Byte
  full : body.length = 184

/-- The packet a send becomes under the current counters. -/
def Send.packet (send : Send) (counter : ContinuityCounter) : List Byte :=
  (packetheader counter send.pid send.playInit send.adaFieldC).bytes ++ send.body

/-- The packets of consecutive sends, each one advancing its own counter. -/
def stamp : ContinuityCounter → List Send → List (List Byte)
  | _, [] => []
  | counter, send :: rest => send.packet counter :: stamp (counter.advance send.pid) rest

/-- The counters after consecutive sends. -/
def advanceAll (counter : ContinuityCounter) (sends : List Send) : ContinuityCounter :=
  sends.foldl (fun counter send => counter.advance send.pid) counter

/-- The session after making sends and counting packets. -/
def delivered (session : TspkgSession) (sends : List Send) (counted : Nat) : TspkgSession :=
  { session with
    continuityCounter := advanceAll session.continuityCounter sends
    received := if session.writets then session.received ++ stamp session.continuityCounter sends
      else session.received
    writePacketNum := session.writePacketNum + BitVec.ofNat 32 counted }

/-- Every packet has 188 bytes. -/
@[simp] theorem packet_length (send : Send) (counter : ContinuityCounter) :
    (send.packet counter).length = 188 := by
  simp [Send.packet, send.full]

/-- Packets in two parts are stamped one after the other. -/
theorem stamp_append (counter : ContinuityCounter) (first second : List Send) :
    stamp counter (first ++ second) =
      stamp counter first ++ stamp (advanceAll counter first) second := by
  induction first generalizing counter with
  | nil => rfl
  | cons send rest inductionHypothesis =>
    simp only [List.cons_append, stamp, inductionHypothesis, advanceAll, List.foldl_cons]

/-- Delivering nothing changes nothing. -/
@[simp] theorem delivered_nothing (session : TspkgSession) : delivered session [] 0 = session := by
  cases session
  simp [delivered, advanceAll, stamp]

/-- Delivering in two parts is delivering at once. -/
@[simp] theorem delivered_delivered (session : TspkgSession) (first second : List Send)
    (counted more : Nat) :
    delivered (delivered session first counted) second more =
      delivered session (first ++ second) (counted + more) := by
  cases carried : session.writets <;>
    simp [delivered, carried, advanceAll, stamp_append, BitVec.ofNat_add, BitVec.add_assoc]

/-- Delivering counts what it is told to. -/
@[simp] theorem delivered_write_packet_num (session : TspkgSession) (sends : List Send)
    (counted : Nat) : (delivered session sends counted).writePacketNum =
      session.writePacketNum + BitVec.ofNat 32 counted := rfl

/-- Counting a packet delivers nothing. -/
@[simp] theorem count_packet_delivered (session : TspkgSession) :
    countPacket session = delivered session [] 1 := by
  cases session
  simp [countPacket, delivered, advanceAll, stamp]

/-- Writing a header into a uniform packet buffer leaves 184 cells behind it. -/
theorem header_written (session : TspkgSession) (pid : Word) (playInit adaFieldC rest : Byte) :
    writeStructPacketheader session (List.replicate tsPacketSize rest) pid playInit adaFieldC =
      ({ session with continuityCounter := session.continuityCounter.advance pid },
        (packetheader session.continuityCounter pid playInit adaFieldC).bytes ++
          List.replicate 184 rest) := by
  rw [writeStructPacketheader, overwrite_first _ _ _ 184 (by simp [tsPacketSize])]

/-- Handing over a finished packet after its header was written is one send. -/
theorem write_file_send (session : TspkgSession) (send : Send) (pid : Word) (buffer : List Byte)
    (same : send.pid = pid) (built : buffer = send.packet session.continuityCounter) :
    writeFile { session with continuityCounter := session.continuityCounter.advance pid }
        buffer tsPacketSize = delivered session [send] 0 := by
  subst same built
  have whole : (send.packet session.continuityCounter).take tsPacketSize =
      send.packet session.continuityCounter := List.take_of_length_le (by simp [tsPacketSize])
  cases carried : session.writets <;>
    simp [writeFile, delivered, carried, advanceAll, stamp, whole]

/-- The association table packet: pointer field, section, checksum, stuffing. -/
def patSend : Send where
  pid := tsPatPid
  playInit := 0x01
  adaFieldC := 0x01
  body := [0] ++ tspat.bytes ++ Crc.memoryImage (Crc.zwgNtohl (Crc.calcCrc32 tspat.bytes)) ++
    List.replicate 167 0xFF
  full := rfl

/-- The map table packet. -/
def pmtSend : Send where
  pid := tsPmtPid
  playInit := 0x01
  adaFieldC := 0x01
  body := [0] ++ tspmt.bytes ++ Crc.memoryImage (Crc.zwgNtohl (Crc.calcCrc32 tspmt.bytes)) ++
    List.replicate 157 0xFF
  full := rfl

/-- What `WriteStruct_Pat` fills its buffer with. -/
theorem pat_packet (session : TspkgSession) :
    (writeStructPat session).2 = patSend.packet session.continuityCounter := by
  simp only [writeStructPat, header_written]
  rw [overwrite_next _ [0] _ 4 184 183 rfl rfl, overwrite_next _ tspat.bytes _ 5 183 171 rfl rfl,
    overwrite_next _ (Crc.memoryImage _) _ 17 171 167 rfl rfl]
  simp only [Send.packet, patSend, List.append_assoc]
  rfl

/-- Writing the first table delivers its packet. -/
@[simp] theorem write_pat_delivered (session : TspkgSession) :
    writePat session = delivered session [patSend] 0 :=
  write_file_send session patSend _ _ rfl (pat_packet session)

/-- What `WriteStruct_Pmt` fills its buffer with. The section length written from the
position reached is the one already written from the structure. -/
theorem pmt_packet (session : TspkgSession) :
    (writeStructPmt session).2 = pmtSend.packet session.continuityCounter := by
  have rewritten : overwrite
      ((packetheader session.continuityCounter tsPmtPid 0x01 0x01).bytes ++ [0] ++ tspmt.bytes ++
        List.replicate 161 0xFF) 6 [0xb0, 0x17] =
      (packetheader session.continuityCounter tsPmtPid 0x01 0x01).bytes ++ [0] ++ tspmt.bytes ++
        List.replicate 161 0xFF := rfl
  simp only [writeStructPmt, header_written]
  rw [overwrite_next _ [0] _ 4 184 183 rfl rfl, overwrite_next _ tspmt.bytes _ 5 183 161 rfl rfl,
    show low (0xb0#32 ||| (if 0xffff < (BitVec.ofNat 32 (27 - 8 + 4)).toNat then 0
      else BitVec.ofNat 32 (27 - 8 + 4)) >>> 8) = 0xb0 by decide,
    show low (if 0xffff < (BitVec.ofNat 32 (27 - 8 + 4)).toNat then 0
      else BitVec.ofNat 32 (27 - 8 + 4)) = 0x17 by decide,
    rewritten, overwrite_next _ (Crc.memoryImage _) _ 27 161 157 rfl rfl]
  simp only [Send.packet, pmtSend, List.append_assoc]
  rfl

/-- Writing the second table delivers its packet. -/
@[simp] theorem write_pmt_delivered (session : TspkgSession) :
    writePmt session = delivered session [pmtSend] 0 :=
  write_file_send session pmtSend _ _ rfl (pmt_packet session)

end IotCamera.Sends
