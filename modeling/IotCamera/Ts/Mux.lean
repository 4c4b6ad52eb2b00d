import IotCamera.Ts.Pes

/-!
# The transport stream muxer

`Mux.cpp`: adaptation fields, the cutting of one PES packet into transport
packets, and the entry point that takes one audio or video frame. The layouts
are the source's own: a frame that fits in one packet, the first packet of
several, full packets, the packet for a rest of 182 or 183 bytes, and the
stuffed tail. Each is built by the same writes at the same positions.

Elementary data is read from the frame array through `slice`. Positions and
lengths are natural numbers; every subtraction of the source stays in range for
the adaptation lengths the muxer uses. The entry point stops with a fault at a
division by zero or a copy out of bounds and keeps the session as it stood.
-/

namespace IotCamera.Mux

open Memory Buffers Packet Pes

/-- Write one association table packet. -/
def writePat (session : TspkgSession) : TspkgSession :=
  let (session, buf) := writeStructPat session
  writeFile session buf tsPacketSize

/-- Write one map table packet. -/
def writePmt (session : TspkgSession) : TspkgSession :=
  let (session, buf) := writeStructPmt session
  writeFile session buf tsPacketSize

/-- Cut a frame out of the caller's buffer, as video or as audio. -/
def takeOutPes (tspes : TsPes) (timePts : Word) (frametype : Word) (videoframetype : Byte)
    (pData : List Byte) (iDataSize : Int) : Except Fault (TsPes × Byte × Nat) :=
  if frametype = 0x00 then h2642Pes timePts videoframetype pData iDataSize
  else do
    let (tspes, pesPos) ← aac2Pes tspes timePts pData iDataSize
    return (tspes, videoframetype, pesPos)

/-- The adaptation field of a packet that carries a clock reference. The product
is formed in 32 bits before it is stored in the 64-bit field. -/
def writeAdaptiveFlagsHead (tsAdaptationField : TsAdaptationField) (videopts : Word) :
    TsAdaptationField :=
  { tsAdaptationField with
    discontinutyIndicator := 0
    randomAccessIndicator := 0
    elementaryStreamPriorityIndicator := 0
    pcrFlag := 1
    opcrFlag := 0
    splicingPointFlag := 0
    transportPrivateDataFlag := 0
    adaptationFieldExtensionFlag := 0
    pcr := (videopts * 300).setWidth 64
    adaptationFieldLength := 7
    opcr := 0
    spliceCountdown := 0
    privateDataLen := 0 }

/-- The adaptation field of a packet without a clock reference. -/
def writeAdaptiveFlagsTail (tsAdaptationField : TsAdaptationField) : TsAdaptationField :=
  { tsAdaptationField with
    discontinutyIndicator := 0
    randomAccessIndicator := 0
    elementaryStreamPriorityIndicator := 0
    pcrFlag := 0
    opcrFlag := 0
    splicingPointFlag := 0
    transportPrivateDataFlag := 0
    adaptationFieldExtensionFlag := 0
    pcr := 0
    adaptationFieldLength := 1
    opcr := 0
    spliceCountdown := 0
    privateDataLen := 0 }

/-- The six bytes of a program clock reference: 33 bits of base, six reserved
bits, nine bits of extension. -/
def pcrBytes (pcr : BitVec 64) : List Byte :=
  let pcrBase : BitVec 64 := pcr / 300
  let pcrExt : Word := (pcr % 300).setWidth 32
  [low (pcrBase >>> 25 &&& 0xff),
   low (pcrBase >>> 17 &&& 0xff),
   low (pcrBase >>> 9 &&& 0xff),
   low (pcrBase >>> 1 &&& 0xff),
   low (pcrBase <<< 7 ||| pcrExt.setWidth 64 >>> 8 ||| 0x7e),
   low (pcrExt &&& 0xff)]

/-- The six bytes of an original clock reference; its reserved bits are zero. -/
def opcrBytes (opcr : BitVec 64) : List Byte :=
  let opcrBase : BitVec 64 := opcr / 300
  let opcrExt : Word := (opcr % 300).setWidth 32
  [low (opcrBase >>> 25 &&& 0xff),
   low (opcrBase >>> 17 &&& 0xff),
   low (opcrBase >>> 9 &&& 0xff),
   low (opcrBase >>> 1 &&& 0xff),
   low ((opcrBase <<< 7 &&& 0x80#64) ||| (opcrExt.setWidth 64 >>> 8 &&& 0x01#64)),
   low (opcrExt &&& 0xff)]

/-- The adaptation field under construction: the packet buffer, the position
behind the length byte, the length used so far and the flags collected. -/
structure Adaptive where
  buf : List Byte
  adaptivePos : Nat
  currentAdaptiveLength : Nat
  adaptiveflags : Byte

/-- An optional part: when its flag is set, its bytes are written at the current
position and its bit is added to the flags. -/
def Adaptive.part (adaptive : Adaptive) (base : Nat) (present : Bool) (flag : Byte)
    (bytes : List Byte) : Adaptive :=
  if present then
    { buf := overwrite adaptive.buf (base + adaptive.adaptivePos) bytes
      adaptivePos := adaptive.adaptivePos + bytes.length
      currentAdaptiveLength := adaptive.currentAdaptiveLength + bytes.length
      adaptiveflags := adaptive.adaptiveflags ||| flag }
  else adaptive

/-- Fill the adaptation field that starts at `base`, behind its length byte. The
flags are stored last; private data that does not fit ends the function before
that. The extension part writes its two bytes one position late and does not
advance, as the source has it. -/
def createAdaptiveTs (field : TsAdaptationField) (buf : List Byte) (base adaptiveLength : Nat) :
    List Byte :=
  if field.adaptationFieldLength = 0 then buf else
    let adaptive : Adaptive := ⟨buf, 1, 2, 0⟩
    let adaptive := adaptive.part base (field.discontinutyIndicator ≠ 0) 0x80 []
    let adaptive := adaptive.part base (field.randomAccessIndicator ≠ 0) 0x40 []
    let adaptive := adaptive.part base (field.elementaryStreamPriorityIndicator ≠ 0) 0x20 []
    let adaptive := adaptive.part base (field.pcrFlag ≠ 0) 0x10 (pcrBytes field.pcr)
    let adaptive := adaptive.part base (field.opcrFlag ≠ 0) 0x08 (opcrBytes field.opcr)
    let adaptive := adaptive.part base (field.splicingPointFlag ≠ 0) 0x04 [field.spliceCountdown]
    let privateLen := field.privateDataLen.toNat
    let hasPrivate : Bool := 0 < privateLen
    -- the difference is unsigned: a field already too long wraps and admits the data
    let room := unsigned (adaptiveLength - adaptive.currentAdaptiveLength)
    if hasPrivate ∧ room < 1 + privateLen then adaptive.buf else
      let adaptive := adaptive.part base hasPrivate 0x02
        (field.privateDataLen :: slice field.privateData.cell 0 privateLen)
      let adaptive :=
        if field.adaptationFieldExtensionFlag ≠ 0 then
          { adaptive with
            adaptiveflags := adaptive.adaptiveflags ||| 0x01
            buf := overwrite adaptive.buf (base + adaptive.adaptivePos + 1) [1, 0] }
        else adaptive
      overwrite adaptive.buf base [adaptive.adaptiveflags]

/-- The nine fixed bytes of a PES header. -/
def pesHeaderBytes (tsPes : TsPes) : List Byte :=
  [low (promote tsPes.packetStartCodePrefix >>> 16 &&& 0xFF),
   low (promote tsPes.packetStartCodePrefix >>> 8 &&& 0xFF),
   low (promote tsPes.packetStartCodePrefix &&& 0xFF),
   tsPes.streamId,
   low (promote tsPes.pesPacketLength >>> 8 &&& 0xFF),
   low (promote tsPes.pesPacketLength &&& 0xFF),
   low (promote tsPes.markerBit <<< 6 ||| promote tsPes.pesScramblingControl <<< 4 |||
     promote tsPes.pesPriority <<< 3 ||| promote tsPes.dataAlignmentIndicator <<< 2 |||
     promote tsPes.copyright <<< 1 ||| promote tsPes.originalOrCopy),
   low (promote tsPes.ptsDtsFlags <<< 6 ||| promote tsPes.escrFlag <<< 5 |||
     promote tsPes.esRateFlag <<< 4 ||| promote tsPes.dsmTrickModeFlag <<< 3 |||
     promote tsPes.additionalCopyInfoFlag <<< 2 ||| promote tsPes.pesCrcFlag <<< 1 |||
     promote tsPes.pesExtensionFlag),
   tsPes.pesHeaderDataLength]

/-- The five bytes of a presentation time stamp with its marker bits. -/
def ptsBytes (pts : Word) : List Byte :=
  [low (((0x3#32 <<< 4) ||| (pts >>> 29 &&& 0x0E) ||| 0x01) &&& 0xff),
   low ((((pts >>> 14 &&& 0xfffe) ||| 0x01) >>> 8) &&& 0xff),
   low (((pts >>> 14 &&& 0xfffe) ||| 0x01) &&& 0xff),
   low ((((pts <<< 1 &&& 0xfffe) ||| 0x01) >>> 8) &&& 0xff),
   low (((pts <<< 1 &&& 0xfffe) ||| 0x01) &&& 0xff)]

/-- The time stamp argument that belongs to the stream; an unknown stream is the
source's error branch. -/
def streamPts (tsPes : TsPes) (videopts adudiopts : Word) : Option Word :=
  if tsPes.streamId = tsH264StreamId then some videopts
  else if tsPes.streamId = tsAacStreamId then some adudiopts
  else none

/-- Count one written packet. -/
def countPacket (session : TspkgSession) : TspkgSession :=
  { session with writePacketNum := session.writePacketNum + 1 }

/-- The tables are due when the packet counter is a multiple of forty. -/
def patPmtEvery40 (session : TspkgSession) : TspkgSession :=
  if session.writePacketNum % 40 = 0 then writePmt (writePat session) else session

/-- The payload room of the first of several packets, an unsigned difference. -/
def firstPacketLoadLength (head : TsAdaptationField) : Nat :=
  unsigned (188 - 4 - 1 - head.adaptationFieldLength.toNat - 14)

/-- A frame that fits in one packet: the room it leaves is adaptation stuffing.
No table check and no clock reference is made here. The answer is the packet
counter, or the key read in the error branch. -/
def singlePacket (session : TspkgSession) (tsPes : TsPes) (pid : Word)
    (videopts adudiopts : Word) : TspkgSession × Option Word :=
  let beyond := tsPes.pesPacketLengthBeyond
  let tsBuf := List.replicate tsPacketSize 0xFF
  let (session, tsBuf) := writeStructPacketheader session tsBuf pid 0x01 0x03
  let tsBuf := overwrite tsBuf 4 [BitVec.ofNat 8 (184 - beyond - 9 - 5 - 1), 0x00]
  let tsBuf := overwrite tsBuf 6 (List.replicate (184 - beyond - 9 - 5 - 2) 0xFF)
  let tsPos := 6 + (184 - beyond - 9 - 5 - 2)
  let tsBuf := overwrite tsBuf tsPos (pesHeaderBytes tsPes)
  match streamPts tsPes videopts adudiopts with
  | none => (session, none)
  | some pts =>
    let tsBuf := overwrite tsBuf (tsPos + 9) (ptsBytes pts)
    let tsBuf := overwrite tsBuf (tsPos + 9 + 5) (slice tsPes.es.cell 0 beyond)
    let session := countPacket (writeFile session tsBuf tsPacketSize)
    (session, some session.writePacketNum)

/-- The first of several packets, with the head's adaptation field. -/
def firstPacket (session : TspkgSession) (tsPes : TsPes) (pid : Word) (head : TsAdaptationField)
    (videopts adudiopts : Word) : TspkgSession × Option Unit :=
  let tsBuf := List.replicate tsPacketSize 0
  let session := patPmtEvery40 session
  let (session, tsBuf) := writeStructPacketheader session tsBuf pid 0x01 0x03
  let tsBuf := overwrite tsBuf 4 [head.adaptationFieldLength]
  let tsBuf := createAdaptiveTs head tsBuf 5 (188 - 4 - 1 - 14)
  let tsPos := 5 + head.adaptationFieldLength.toNat
  let tsBuf := overwrite tsBuf tsPos (pesHeaderBytes tsPes)
  match streamPts tsPes videopts adudiopts with
  | none => (session, none)
  | some pts =>
    let tsBuf := overwrite tsBuf (tsPos + 9) (ptsBytes pts)
    let tsBuf := overwrite tsBuf (tsPos + 9 + 5) (slice tsPes.es.cell 0 (firstPacketLoadLength head))
    (countPacket (writeFile session tsBuf tsPacketSize), some ())

/-- A packet of 184 payload bytes. -/
def middlePacket (session : TspkgSession) (es : Nat → Byte) (pid : Word) (neafBuf : Nat) :
    TspkgSession :=
  let tsBuf := List.replicate tsPacketSize 0
  let (session, tsBuf) := writeStructPacketheader session tsBuf pid 0x00 0x01
  let tsBuf := overwrite tsBuf 4 (slice es neafBuf 184)
  writeFile session tsBuf tsPacketSize

/-- A packet of 182 payload bytes behind a two-byte adaptation field; the table
check is made once more. -/
def nearlyFullPacket (session : TspkgSession) (es : Nat → Byte) (pid : Word) (neafBuf : Nat) :
    TspkgSession :=
  let tsBuf := List.replicate tsPacketSize 0
  let session := patPmtEvery40 session
  let (session, tsBuf) := writeStructPacketheader session tsBuf pid 0x00 0x03
  let tsBuf := overwrite tsBuf 4 [0x01, 0x00]
  let tsBuf := overwrite tsBuf 6 (slice es neafBuf 182)
  writeFile session tsBuf tsPacketSize

/-- The last packet of a frame, stuffed to its size; the table check is made
once more, and the packet is counted here as well as in the loop. -/
def tailPacket (session : TspkgSession) (es : Nat → Byte) (pid : Word) (neafBuf beyond : Nat) :
    TspkgSession :=
  let tsBuf := List.replicate tsPacketSize 0
  let session := patPmtEvery40 session
  let (session, tsBuf) := writeStructPacketheader session tsBuf pid 0x00 0x03
  let tsBuf := overwrite tsBuf 4 [BitVec.ofNat 8 (184 - beyond - 1), 0x00]
  let tsBuf := overwrite tsBuf 6 (List.replicate (184 - beyond - 2) 0xFF)
  let tsPos := 6 + (184 - beyond - 2)
  let tsBuf := overwrite tsBuf tsPos (slice es neafBuf beyond)
  countPacket (writeFile session tsBuf tsPacketSize)

/-- The loop over what the first packet left. Every pass shortens the rest, so
the rest itself is enough fuel. -/
def neafPackets (es : Nat → Byte) (pid : Word) : Nat → TspkgSession → Nat → Nat → TspkgSession
  | 0, session, _, _ => session
  | fuel + 1, session, neafBuf, beyond =>
    if beyond = 0 then session else
      let session := patPmtEvery40 session
      if 184 ≤ beyond then
        neafPackets es pid fuel (countPacket (middlePacket session es pid neafBuf))
          (neafBuf + 184) (beyond - 184)
      else if beyond = 183 ∨ beyond = 182 then
        neafPackets es pid fuel (countPacket (nearlyFullPacket session es pid neafBuf))
          (neafBuf + 182) (beyond - 182)
      else
        neafPackets es pid fuel (countPacket (tailPacket session es pid neafBuf beyond)) neafBuf 0

/-- Cut one PES packet into transport packets. The frame length is counted down
to zero unless one packet held the frame. -/
def pes2Ts (session : TspkgSession) (tsPes : TsPes) (videoAudioPid : Word)
    (head _tail : TsAdaptationField) (videopts adudiopts : Word) :
    TspkgSession × TsPes × Option Word :=
  if tsPes.pesPacketLengthBeyond < firstPacketLoadLength head then
    let (session, answer) := singlePacket session tsPes videoAudioPid videopts adudiopts
    (session, tsPes, answer)
  else
    let (session, sent) := firstPacket session tsPes videoAudioPid head videopts adudiopts
    match sent with
    | none => (session, tsPes, none)
    | some () =>
      let neafBuf := firstPacketLoadLength head
      let beyond := tsPes.pesPacketLengthBeyond - neafBuf
      let session := neafPackets tsPes.es.cell videoAudioPid beyond session neafBuf beyond
      (session, { tsPes with pesPacketLengthBeyond := 0 }, some session.writePacketNum)

/-- The arguments of one call of the entry point that it reads. -/
structure Call where
  framerate : Word
  pts : Word
  iStreamType : Int
  pData : List Byte
  iDataSize : Int
  deriving DecidableEq, Repr

/-- An unsigned division, which a zero divisor stops. -/
def divide (dividend divisor : Word) : Except Fault Word :=
  if divisor = 0 then .error .divisionByZero else .ok (dividend / divisor)

/-- The two local adaptation fields before they are written. Everything the
packetiser reads of them is written first; their private data is never read. -/
def uninitialised : TsAdaptationField :=
  ⟨0, 0, 0, 0, 0, 0, 0, 0, 0, 0, 0, 0, 0, Block.uniform 256 0⟩

/-- Advance the video clock after a slice: once by the caller's frame rate, and
once more by the rate between this slice's time and the last one's. -/
def advanceVideoClock (session : TspkgSession) (framerate pts : Word) :
    Except (Fault × TspkgSession) TspkgSession :=
  match divide (1000 * 90) framerate with
  | .error fault => .error (fault, session)
  | .ok step =>
    let session := { session with timestampVideo := session.timestampVideo + step }
    match divide 1000 (pts - session.pts) with
    | .error fault => .error (fault, session)
    | .ok framerate =>
      let session := { session with pts := pts }
      match divide (1000 * 90) framerate with
      | .error fault => .error (fault, session)
      | .ok step => .ok { session with timestampVideo := session.timestampVideo + step }

/-- Advance the audio clock by one frame of 1024 samples. -/
def advanceAudioClock (session : TspkgSession) (framerate : Word) :
    Except (Fault × TspkgSession) TspkgSession :=
  match divide (1024 * 1000 * 90) framerate with
  | .error fault => .error (fault, session)
  | .ok step => .ok { session with timestampAudio := session.timestampAudio + step }

/-- The audio branch: one frame, then the audio clock. -/
def writeAudio (session : TspkgSession) (call : Call) :
    Except (Fault × TspkgSession) TspkgSession :=
  match takeOutPes session.mAudioTspes session.timestampAudio 0x01 0 call.pData call.iDataSize with
  | .error fault => .error (fault, session)
  | .ok (tspes, _, _) =>
    let session := { session with mAudioTspes := tspes }
    if tspes.pesPacketLengthBeyond ≠ 0 then
      let head := writeAdaptiveFlagsTail uninitialised
      let tail := writeAdaptiveFlagsTail uninitialised
      let (session, tspes, _) :=
        pes2Ts session tspes tsAacPid head tail session.timestampVideo session.timestampAudio
      advanceAudioClock { session with mAudioTspes := tspes } call.framerate
    else .ok session

/-- The video branch: slices carry a clock reference and advance the clock;
every other unit is sent with the tail's field and leaves the clock alone. -/
def writeVideo (session : TspkgSession) (call : Call) :
    Except (Fault × TspkgSession) TspkgSession :=
  match takeOutPes session.mVideoTspes session.timestampVideo 0x00 0 call.pData call.iDataSize with
  | .error fault => .error (fault, session)
  | .ok (tspes, videoframetype, _) =>
    let session := { session with mVideoTspes := tspes }
    if tspes.pesPacketLengthBeyond ≠ 0 then
      if videoframetype = frameI ∨ videoframetype = frameP ∨ videoframetype = frameB then
        let head := writeAdaptiveFlagsHead uninitialised session.timestampVideo
        let tail := writeAdaptiveFlagsTail uninitialised
        let (session, tspes, _) :=
          pes2Ts session tspes tsH264Pid head tail session.timestampVideo session.timestampAudio
        advanceVideoClock { session with mVideoTspes := tspes } call.framerate call.pts
      else
        let head := writeAdaptiveFlagsTail uninitialised
        let tail := writeAdaptiveFlagsTail uninitialised
        let (session, tspes, _) :=
          pes2Ts session tspes tsH264Pid head tail session.timestampVideo session.timestampAudio
        .ok { session with mVideoTspes := tspes }
    else .ok session

/-- The entry point: one audio or video frame; any other stream type is ignored. -/
def writeBuf2TsFile (session : TspkgSession) (call : Call) :
    Except (Fault × TspkgSession) TspkgSession :=
  if call.iStreamType = 0 then writeAudio session call
  else if call.iStreamType = 1 then writeVideo session call
  else .ok session

end IotCamera.Mux
