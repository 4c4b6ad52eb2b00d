import IotCamera.Ts.Packet
import IotCamera.Ts.Mybs

/-!
# From an encoded frame to a PES packet

`Video.cpp` and the buffer half of `Audio.cpp`. A video buffer is cut into a NAL
unit, classified by its type and slice header, and rebuilt behind a synthesised
start code; an audio buffer is copied as it is. Both then fill the same PES
header fields.

Allocations are taken to succeed and to return zeroed storage, as `calloc` does.
Copy lengths are converted to the target's 32-bit `size_t`, so a negative or
wrapped length is a huge one and the copy faults. Two overloads read NAL units:
one from a buffer, one from a file; the file is what has been consumed and what
is still unread.
-/

namespace IotCamera.Pes

open Memory Packet

def maxVideoTagBufSize : Nat := 1024 * 1024

def nalSlice : Byte := 1
def nalSliceIdr : Byte := 5
def nalSei : Byte := 6
def nalSps : Byte := 7
def nalPps : Byte := 8
def frameI : Byte := 15
def frameP : Byte := 16
def frameB : Byte := 17

/-- A NAL unit without its start code, in a buffer of `maxSize` bytes. -/
structure Nalu (maxSize : Nat) where
  forbiddenBit : Byte
  nalReferenceIdc : Byte
  nalUnitType : Byte
  startcodeprefixLen : Nat
  len : Nat
  buf : Block maxSize
  frametype : Byte

/-- A zeroed NAL unit with an empty buffer of the given size. -/
def allocNalu (bufferSize : Nat) : Nalu bufferSize :=
  ⟨0, 0, 0, 0, 0, Block.uniform bufferSize 0, 0⟩

/-- An `int` length converted to a 32-bit unsigned one. -/
def unsigned (length : Int) : Nat := (length % 2 ^ 32).toNat

/-- A 32-bit unsigned length converted to an `int`. -/
def signed (length : Nat) : Int := (BitVec.ofNat 32 length).toInt

/-- The header fields a NAL unit takes from the first byte of its buffer. -/
def Nalu.readHeader {maxSize : Nat} (nalu : Nalu maxSize) : Nalu maxSize :=
  { nalu with
    forbiddenBit := nalu.buf.cell 0 &&& 0x80
    nalReferenceIdc := nalu.buf.cell 0 &&& 0x60
    nalUnitType := nalu.buf.cell 0 &&& 0x1f }

/-- Whether the buffer starts with 00 00 01. -/
def findStartCode2 (buf : List Byte) : Bool := buf.take 3 = [0, 0, 1]

/-- Whether the buffer starts with 00 00 00 01. -/
def findStartCode3 (buf : List Byte) : Bool := buf.take 4 = [0, 0, 0, 1]

/-- An open file, split at its position. -/
structure File where
  consumed : List Byte
  unread : List Byte
  deriving DecidableEq, Repr

/-- Read up to `count` bytes. -/
def File.read (file : File) (count : Nat) : List Byte × File :=
  (file.unread.take count, ⟨file.consumed ++ file.unread.take count, file.unread.drop count⟩)

/-- Move the position back by `count` bytes. -/
def File.back (file : File) (count : Nat) : File :=
  let kept := file.consumed.length - count
  ⟨file.consumed.take kept, file.consumed.drop kept ++ file.unread⟩

/-- How the search for the next start code ended: at the end of the file, or at
a start code of three or four bytes. -/
inductive Search where
  | endOfFile (file : File) (buf : List Byte)
  | found (file : File) (buf : List Byte) (prefixLen : Nat)

/-- Append bytes to the buffer until it ends in a start code. At the end of the
file the failed read still stores one byte, 0xFF, before the test for the end
is made. A store past the buffer is a fault. The recursion is on the unread
bytes, one of which every pass consumes. -/
def annexbLoop (maxSize : Nat) (consumed : List Byte) :
    List Byte → List Byte → Except Fault Search
  | [], buf =>
    if buf.length < maxSize then .ok (.endOfFile ⟨consumed, []⟩ (buf ++ [0xFF]))
    else .error .outOfBounds
  | byte :: unread, buf =>
    if buf.length < maxSize then
      let buf := buf ++ [byte]
      if findStartCode3 (buf.drop (buf.length - 4)) then
        .ok (.found ⟨consumed ++ [byte], unread⟩ buf 4)
      else if findStartCode2 (buf.drop (buf.length - 3)) then
        .ok (.found ⟨consumed ++ [byte], unread⟩ buf 3)
      else annexbLoop maxSize (consumed ++ [byte]) unread buf
    else .error .outOfBounds

/-- Cut the unit out of the bytes read: behind the prefix, `len` bytes. -/
def Nalu.take {maxSize : Nat} (nalu : Nalu maxSize) (buf : List Byte) (prefixLen len : Nat) :
    Except Fault (Nalu maxSize) := do
  let cut ← nalu.buf.memcpy 0 (Block.ofBytes buf) prefixLen len
  return { nalu with startcodeprefixLen := prefixLen, len := len, buf := cut }.readHeader

/-- Read the unit behind a start code: up to the next start code, which is left
unread, or to the end of the file. The answer is the length of that next start
code, three at the end of the file. -/
def Nalu.readUnit {maxSize : Nat} (nalu : Nalu maxSize) (file : File) (start : List Byte) :
    Except Fault (Nalu maxSize × File × Int) := do
  match ← annexbLoop maxSize file.consumed file.unread start with
  | .endOfFile file buf =>
    return (← nalu.take buf start.length (buf.length - 1 - start.length), file, 3)
  | .found file buf next =>
    return (← nalu.take buf start.length (buf.length - next - start.length), file.back next, next)

/-- The file overload of `GetAnnexbNALU`: a start code, three bytes tried before
four, then the unit behind it. Returns 0 at the end of the file and -1 when no
start code stands here. -/
def getAnnexbNaluFile {maxSize : Nat} (nalu : Nalu maxSize) (file : File) :
    Except Fault (Nalu maxSize × File × Int) :=
  let (three, file) := file.read 3
  let nalu := { nalu with startcodeprefixLen := 3 }
  if three.length ≠ 3 then .ok (nalu, file, 0)
  else if findStartCode2 three then nalu.readUnit file three
  else
    let (one, file) := file.read 1
    if one.length ≠ 1 then .ok (nalu, file, 0)
    else if findStartCode3 (three ++ one) then nalu.readUnit file (three ++ one)
    else .ok (nalu, file, -1)

/-- The buffer overload of `GetAnnexbNALU`: the prefix is taken to be four bytes
long whatever the buffer starts with. Always returns 4. -/
def getAnnexbNalu {maxSize : Nat} (nalu : Nalu maxSize) (pData : List Byte) (iDataSize : Int) :
    Except Fault (Nalu maxSize × Int) := do
  let buf ← (Block.uniform maxSize 0).memcpy 0 (Block.ofBytes pData) 0 (unsigned iDataSize)
  let len := unsigned (iDataSize - 4)
  let cut ← nalu.buf.memcpy 0 buf 4 len
  return ({ nalu with startcodeprefixLen := 4, len := len, buf := cut }.readHeader, 4)

/-- The frame type of a slice, from the slice type after the first macroblock
number. A value above nine leaves the type as it was. -/
def sliceFrametype (frametype : Byte) (sliceType : Word) : Byte :=
  if sliceType = 0 ∨ sliceType = 5 then frameP
  else if sliceType = 1 ∨ sliceType = 6 then frameB
  else if sliceType = 3 ∨ sliceType = 8 then frameP
  else if sliceType = 2 ∨ sliceType = 7 then frameI
  else if sliceType = 4 ∨ sliceType = 9 then frameI
  else frametype

/-- The start code written in front of a unit; any other length writes nothing. -/
def startCode (startcodeprefixLen : Nat) : List Byte :=
  if startcodeprefixLen = 3 then [0x00, 0x00, 0x01]
  else if startcodeprefixLen = 4 then [0x00, 0x00, 0x00, 0x01]
  else []

/-- Rebuild a frame in an array: the start code, then the unit. -/
def Nalu.rebuild {maxSize size : Nat} (nal : Nalu maxSize) (buf : Block size) :
    Except Fault (Block size) :=
  if nal.startcodeprefixLen = 3 ∨ nal.startcodeprefixLen = 4 then
    (buf.store 0 (startCode nal.startcodeprefixLen)).memcpy nal.startcodeprefixLen nal.buf 0 nal.len
  else .ok buf

/-- Classify a unit: slices by the slice header behind the NAL header byte, the
parameter sets and supplemental units by their own type. -/
def getFrameType {maxSize : Nat} (nal : Nalu maxSize) : Except Fault (Nalu maxSize) := do
  let oneFrameBuf ← nal.rebuild (Block.uniform (unsigned (nal.len + 4)) 0)
  let s := Mybs.bsInit (fun index => oneFrameBuf.cell (nal.startcodeprefixLen + 1 + index))
    (signed (unsigned (nal.len - 1)))
  if nal.nalUnitType = nalSlice ∨ nal.nalUnitType = nalSliceIdr then
    let (_, s) := Mybs.bsReadUe s
    let (frameType, _) := Mybs.bsReadUe s
    return { nal with frametype := sliceFrametype nal.frametype frameType }
  else if nal.nalUnitType = nalSei then return { nal with frametype := nalSei }
  else if nal.nalUnitType = nalSps then return { nal with frametype := nalSps }
  else if nal.nalUnitType = nalPps then return { nal with frametype := nalPps }
  else return nal

/-- One frame from a buffer, rebuilt in `buf`, with its type and its length. The
zero answer of `GetAnnexbNALU`, which ends a file, would leave the array and the
type alone. -/
def readOneH264Frame {size : Nat} (buf : Block size) (videoframetype : Byte)
    (pData : List Byte) (iDataSize : Int) : Except Fault (Block size × Byte × Nat) := do
  let (n, startcodeprefixSize) ← getAnnexbNalu (allocNalu maxVideoTagBufSize) pData iDataSize
  if startcodeprefixSize = 0 then return (buf, videoframetype, 0)
  let n ← getFrameType n
  let frame ← n.rebuild buf
  return (frame, n.frametype, unsigned (n.startcodeprefixLen + n.len))

/-- The time stamp fields kept in the structure. The packetiser does not read
them: it encodes its own argument. -/
def fillPtsDts (pts : Word) : TsPtsDts where
  reserved1 := 0x3
  pts32To30 := if 0x7FFFFFFF < pts.toNat then (pts >>> 30 &&& 0x07).setWidth 3 else 0
  markerBit1 := if 0x7FFFFFFF < pts.toNat then 0x1 else 0
  pts29To15 := if 0x7FFF < pts.toNat then (pts >>> 15 &&& 0x007FFF).setWidth 15 else 0
  markerBit2 := if 0x7FFF < pts.toNat then 0x1 else 0
  pts14To0 := (pts &&& 0x007FFF).setWidth 15
  markerBit3 := 0x1

/-- The header fields of a frame, the same for both streams but for the stream
identifier. The packet length stays zero and the frame length is kept apart. -/
def fillPes (es : Block maxOneFrameSize) (streamId : Byte) (oneFrameLen : Nat) (pts : Word) :
    TsPes where
  packetStartCodePrefix := 0x000001
  streamId := streamId
  pesPacketLength := 0x00
  markerBit := 0x02
  pesScramblingControl := 0x00
  pesPriority := 0x00
  dataAlignmentIndicator := 0x00
  copyright := 0x00
  originalOrCopy := 0x00
  ptsDtsFlags := 0x02
  escrFlag := 0x00
  esRateFlag := 0x00
  dsmTrickModeFlag := 0x00
  additionalCopyInfoFlag := 0x00
  pesCrcFlag := 0x00
  pesExtensionFlag := 0x00
  pesHeaderDataLength := 0x05
  tsptsdts := fillPtsDts pts
  es := es
  pesPacketLengthBeyond := oneFrameLen

/-- The returned position: the frame and the header in front of it. -/
def pesPos (oneFrameLen : Nat) : Nat :=
  if 0xFFFF < oneFrameLen then oneFrameLen + 16 else oneFrameLen + 14

/-- The buffer overload of `H2642PES`: the packet, the frame type and the
position. The array is cleared before the frame is placed in it. -/
def h2642Pes (videopts : Word) (videoframetype : Byte) (pData : List Byte) (iDataSize : Int) :
    Except Fault (TsPes × Byte × Nat) := do
  let (es, videoframetype, oneFrameLenH264) ←
    readOneH264Frame (Block.uniform maxOneFrameSize 0) videoframetype pData iDataSize
  return (fillPes es tsH264StreamId oneFrameLenH264 videopts, videoframetype,
    pesPos oneFrameLenH264)

/-- The buffer overload of `AAC2PES`: the frame is copied over the bytes of the
previous one. -/
def aac2Pes (tsaacpes : TsPes) (adudiopts : Word) (pData : List Byte) (iDataSize : Int) :
    Except Fault (TsPes × Nat) := do
  let oneFrameLenAac := unsigned iDataSize
  let es ← tsaacpes.es.memcpy 0 (Block.ofBytes pData) 0 (unsigned iDataSize)
  return (fillPes es tsAacStreamId oneFrameLenAac adudiopts, pesPos oneFrameLenAac)

end IotCamera.Pes
