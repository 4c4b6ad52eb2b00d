import IotCamera.Base.Runs
import IotCamera.Ts.Crc

/-!
# The muxer session, packet headers and program tables

The data of `Ts.h` and the writers of `Ts.cpp` and `FileIo.cpp`. A session
carries the four continuity counters, the packet counter, the two 90 kHz clocks
and the last caller timestamp. Its callback is modelled by what it has received:
`writets` says whether one is installed, and `received` lists the buffers handed
to it in order. Nothing is handed over while no callback is installed.

Bit fields keep their declared widths, so an assignment to one drops the bits
the field cannot hold. The scratch array the tables are built in is overwritten
from its first byte to its last before it is used and is not kept here.
-/

namespace IotCamera.Packet

open Memory Buffers

def tsPacketSize : Nat := 188
def tsSyncByte : Byte := 0x47
def tsPatPid : Word := 0x00
def tsPmtPid : Word := 0xFFF
def tsH264Pid : Word := 0x100
def tsAacPid : Word := 0x101
def tsH264StreamId : Byte := 0xE0
def tsAacStreamId : Byte := 0xC0
def pmtStreamTypeVideo : Byte := 0x1B
def pmtStreamTypeAudio : Byte := 0x0F
def maxOneFrameSize : Nat := 1024 * 1024

structure TsPacketHeader where
  syncByte : BitVec 8
  trasError : BitVec 1
  playInit : BitVec 1
  trasPrio : BitVec 1
  pid : BitVec 13
  trasScramb : BitVec 2
  adaFieldC : BitVec 2
  contiCter : BitVec 4
  deriving DecidableEq, Repr

/-- One stored counter per packet identifier. Only their low four bits reach a
packet; the stored byte wraps at 256. -/
structure ContinuityCounter where
  continuityCounterPat : Byte
  continuityCounterPmt : Byte
  continuityCounterVideo : Byte
  continuityCounterAudio : Byte
  deriving DecidableEq, Repr

structure TsAdaptationField where
  discontinutyIndicator : BitVec 1
  randomAccessIndicator : BitVec 1
  elementaryStreamPriorityIndicator : BitVec 1
  pcrFlag : BitVec 1
  opcrFlag : BitVec 1
  splicingPointFlag : BitVec 1
  transportPrivateDataFlag : BitVec 1
  adaptationFieldExtensionFlag : BitVec 1
  adaptationFieldLength : Byte
  pcr : BitVec 64
  opcr : BitVec 64
  spliceCountdown : Byte
  privateDataLen : Byte
  privateData : Block 256

structure TsPtsDts where
  reserved1 : BitVec 4
  pts32To30 : BitVec 3
  markerBit1 : BitVec 1
  pts29To15 : BitVec 15
  markerBit2 : BitVec 1
  pts14To0 : BitVec 15
  markerBit3 : BitVec 1
  deriving DecidableEq, Repr

/-- A PES packet: header fields, one frame of elementary data and that frame's
length. The length field is the one the packetiser counts down. -/
structure TsPes where
  packetStartCodePrefix : BitVec 24
  streamId : BitVec 8
  pesPacketLength : BitVec 16
  markerBit : BitVec 2
  pesScramblingControl : BitVec 2
  pesPriority : BitVec 1
  dataAlignmentIndicator : BitVec 1
  copyright : BitVec 1
  originalOrCopy : BitVec 1
  ptsDtsFlags : BitVec 2
  escrFlag : BitVec 1
  esRateFlag : BitVec 1
  dsmTrickModeFlag : BitVec 1
  additionalCopyInfoFlag : BitVec 1
  pesCrcFlag : BitVec 1
  pesExtensionFlag : BitVec 1
  pesHeaderDataLength : BitVec 8
  tsptsdts : TsPtsDts
  es : Block maxOneFrameSize
  pesPacketLengthBeyond : Nat

structure TspkgSession where
  continuityCounter : ContinuityCounter
  mVideoTspes : TsPes
  mAudioTspes : TsPes
  writePacketNum : Word
  timestampVideo : Word
  timestampAudio : Word
  pts : Word
  writets : Bool
  received : List (List Byte)

/-- A session as it is created, with a callback installed. The counters and the
two PES packets have no initial value in the source. -/
def TspkgSession.created (counter : ContinuityCounter) (video audio : TsPes) : TspkgSession where
  continuityCounter := counter
  mVideoTspes := video
  mAudioTspes := audio
  writePacketNum := 0
  timestampVideo := 0
  timestampAudio := 0
  pts := 0
  writets := true
  received := []

/-- The counter that packets of one identifier take their number from. -/
def ContinuityCounter.value (counter : ContinuityCounter) (pid : Word) : Byte :=
  if pid = tsPatPid then counter.continuityCounterPat
  else if pid = tsPmtPid then counter.continuityCounterPmt
  else if pid = tsH264Pid then counter.continuityCounterVideo
  else if pid = tsAacPid then counter.continuityCounterAudio
  else 0

/-- Advance the counter of one identifier. Any other identifier is the source's
error branch, which touches no counter. -/
def ContinuityCounter.advance (counter : ContinuityCounter) (pid : Word) : ContinuityCounter :=
  if pid = tsPatPid then { counter with continuityCounterPat := counter.continuityCounterPat + 1 }
  else if pid = tsPmtPid then { counter with continuityCounterPmt := counter.continuityCounterPmt + 1 }
  else if pid = tsH264Pid then
    { counter with continuityCounterVideo := counter.continuityCounterVideo + 1 }
  else if pid = tsAacPid then
    { counter with continuityCounterAudio := counter.continuityCounterAudio + 1 }
  else counter

/-- The four header bytes, packed from the bit fields. -/
def TsPacketHeader.bytes (header : TsPacketHeader) : List Byte :=
  [header.syncByte,
   low (promote header.trasError <<< 7 ||| promote header.playInit <<< 6 |||
     promote header.trasPrio <<< 5 ||| (promote header.pid >>> 8 &&& 0x1f)),
   low (promote header.pid &&& 0x00ff),
   low (promote header.trasScramb <<< 6 ||| promote header.adaFieldC <<< 4 |||
     promote header.contiCter)]

/-- The header of the next packet of an identifier, before it is written. An
unknown identifier leaves the counter field unset in the source, which reports
it and waits for a key; no caller passes one, and the field is read as zero. -/
def packetheader (counter : ContinuityCounter) (pid : Word) (playInit adaFieldC : Byte) :
    TsPacketHeader where
  syncByte := tsSyncByte
  trasError := 0x00
  playInit := playInit.setWidth 1
  trasPrio := 0x00
  pid := pid.setWidth 13
  trasScramb := 0x00
  adaFieldC := adaFieldC.setWidth 2
  contiCter := (counter.value pid % 16).setWidth 4

/-- Write a packet header at the start of a buffer and advance the counter of
its identifier. -/
def writeStructPacketheader (session : TspkgSession) (buf : List Byte) (pid : Word)
    (playInit adaFieldC : Byte) : TspkgSession × List Byte :=
  ({ session with continuityCounter := session.continuityCounter.advance pid },
   overwrite buf 0 (packetheader session.continuityCounter pid playInit adaFieldC).bytes)

structure TsPat where
  tableId : BitVec 8
  sectionSyntaxIndicator : BitVec 1
  zero : BitVec 1
  reserved1 : BitVec 2
  sectionLength : BitVec 12
  transportStreamId : BitVec 16
  reserved2 : BitVec 2
  versionNumber : BitVec 5
  currentNextIndicator : BitVec 1
  sectionNumber : BitVec 8
  lastSectionNumber : BitVec 8
  programNumber : BitVec 16
  reserved3 : BitVec 3
  programMapPid : BitVec 13

structure TsPmt where
  tableId : BitVec 8
  sectionSyntaxIndicator : BitVec 1
  zero : BitVec 1
  reserved1 : BitVec 2
  sectionLength : BitVec 12
  programNumber : BitVec 16
  reserved2 : BitVec 2
  versionNumber : BitVec 5
  currentNextIndicator : BitVec 1
  sectionNumber : BitVec 8
  lastSectionNumber : BitVec 8
  reserved3 : BitVec 3
  pcrPid : BitVec 13
  reserved4 : BitVec 4
  programInfoLength : BitVec 12
  streamTypeVideo : BitVec 8
  reserved5Video : BitVec 3
  elementaryPidVideo : BitVec 13
  reserved6Video : BitVec 4
  esInfoLengthVideo : BitVec 12
  streamTypeAudio : BitVec 8
  reserved5Audio : BitVec 3
  elementaryPidAudio : BitVec 13
  reserved6Audio : BitVec 4
  esInfoLengthAudio : BitVec 12

/-- The one program association table this muxer sends. -/
def tspat : TsPat where
  tableId := 0x00
  sectionSyntaxIndicator := 0x01
  zero := 0x00
  reserved1 := 0x03
  sectionLength := 0x0d
  transportStreamId := 0x01
  reserved2 := 0x03
  versionNumber := 0x00
  currentNextIndicator := 0x01
  sectionNumber := 0x00
  lastSectionNumber := 0x00
  programNumber := 0x01
  reserved3 := 0x07
  programMapPid := tsPmtPid.setWidth 13

/-- The one program map table this muxer sends. -/
def tspmt : TsPmt where
  tableId := 0x02
  sectionSyntaxIndicator := 0x01
  zero := 0x00
  reserved1 := 0x03
  sectionLength := 0x17
  programNumber := 0x01
  reserved2 := 0x03
  versionNumber := 0x00
  currentNextIndicator := 0x01
  sectionNumber := 0x00
  lastSectionNumber := 0x00
  reserved3 := 0x07
  pcrPid := tsH264Pid.setWidth 13
  reserved4 := 0x0F
  programInfoLength := 0x00
  streamTypeVideo := pmtStreamTypeVideo
  reserved5Video := 0x07
  elementaryPidVideo := tsH264Pid.setWidth 13
  reserved6Video := 0x0F
  esInfoLengthVideo := 0x00
  streamTypeAudio := pmtStreamTypeAudio
  reserved5Audio := 0x07
  elementaryPidAudio := tsAacPid.setWidth 13
  reserved6Audio := 0x0F
  esInfoLengthAudio := 0x00

def TsPat.bytes (t : TsPat) : List Byte :=
  [t.tableId,
   low (promote t.sectionSyntaxIndicator <<< 7 ||| promote t.zero <<< 6 |||
     promote t.reserved1 <<< 4 ||| (promote t.sectionLength >>> 8 &&& 0x0F)),
   low (promote t.sectionLength &&& 0x00FF),
   low (promote t.transportStreamId >>> 8),
   low (promote t.transportStreamId &&& 0x00FF),
   low (promote t.reserved2 <<< 6 ||| promote t.versionNumber <<< 1 |||
     promote t.currentNextIndicator),
   t.sectionNumber,
   t.lastSectionNumber,
   low (promote t.programNumber >>> 8),
   low (promote t.programNumber &&& 0x00FF),
   low (promote t.reserved3 <<< 5 ||| (promote t.programMapPid >>> 8 &&& 0x0F)),
   low (promote t.programMapPid &&& 0x00FF)]

def TsPmt.bytes (t : TsPmt) : List Byte :=
  [t.tableId,
   low (promote t.sectionSyntaxIndicator <<< 7 ||| promote t.zero <<< 6 |||
     promote t.reserved1 <<< 4 ||| (promote t.sectionLength >>> 8 &&& 0x0F)),
   low (promote t.sectionLength &&& 0x00FF),
   low (promote t.programNumber >>> 8),
   low (promote t.programNumber &&& 0x00FF),
   low (promote t.reserved2 <<< 6 ||| promote t.versionNumber <<< 1 |||
     promote t.currentNextIndicator),
   t.sectionNumber,
   t.lastSectionNumber,
   low (promote t.reserved3 <<< 5 ||| (promote t.pcrPid >>> 8 &&& 0x1F)),
   low (promote t.pcrPid &&& 0x0FF),
   low (promote t.reserved4 <<< 4 ||| (promote t.programInfoLength >>> 8 &&& 0x0F)),
   low (promote t.programInfoLength &&& 0xFF),
   t.streamTypeVideo,
   low (promote t.reserved5Video <<< 5 ||| (promote t.elementaryPidVideo >>> 8 &&& 0x1F)),
   low (promote t.elementaryPidVideo &&& 0x00FF),
   low (promote t.reserved6Video <<< 4 ||| (promote t.esInfoLengthVideo >>> 8 &&& 0x0F)),
   low (promote t.esInfoLengthVideo &&& 0x0FF),
   t.streamTypeAudio,
   low (promote t.reserved5Audio <<< 5 ||| (promote t.elementaryPidAudio >>> 8 &&& 0x1F)),
   low (promote t.elementaryPidAudio &&& 0x00FF),
   low (promote t.reserved6Audio <<< 4 ||| (promote t.esInfoLengthAudio >>> 8 &&& 0x0F)),
   low (promote t.esInfoLengthAudio &&& 0x0FF)]

/-- Fill a buffer with one association table packet: header, pointer field,
section, checksum over the section, and stuffing to the end. -/
def writeStructPat (session : TspkgSession) : TspkgSession × List Byte :=
  let buf := List.replicate tsPacketSize 0xFF
  let (session, buf) := writeStructPacketheader session buf tsPatPid 0x01 0x01
  let buf := overwrite buf 4 [0]
  let buf := overwrite buf 5 tspat.bytes
  let patPos := 17
  let patCrc := Crc.zwgNtohl (Crc.calcCrc32 ((buf.drop 5).take (patPos - 5)))
  (session, overwrite buf patPos (Crc.memoryImage patCrc))

/-- Fill a buffer with one map table packet. The section length is written
twice: from the structure, and again from the position reached. -/
def writeStructPmt (session : TspkgSession) : TspkgSession × List Byte :=
  let buf := List.replicate tsPacketSize 0xFF
  let (session, buf) := writeStructPacketheader session buf tsPmtPid 0x01 0x01
  let buf := overwrite buf 4 [0]
  let buf := overwrite buf 5 tspmt.bytes
  let pmtPos := 27
  let len : Word := BitVec.ofNat 32 (pmtPos - 8 + 4)
  let len := if 0xffff < len.toNat then 0 else len
  let buf := overwrite buf 6 [low (0xb0#32 ||| len >>> 8), low len]
  let pmtCrc := Crc.zwgNtohl (Crc.calcCrc32 ((buf.drop 5).take (pmtPos - 5)))
  (session, overwrite buf pmtPos (Crc.memoryImage pmtCrc))

/-- Hand the first `bufferSize` bytes of a buffer to the callback, if any. -/
def writeFile (session : TspkgSession) (buffer : List Byte) (bufferSize : Nat) : TspkgSession :=
  if session.writets then
    { session with received := session.received ++ [buffer.take bufferSize] }
  else session

end IotCamera.Packet
