import IotCamera.Base.Memory
import IotCamera.Base.Runs

/-!
# Scaling a batch of boxes

`nna_hw_resize_qg` describes each box to be cut out and scaled, `AwG2dInit` turns
the descriptions into entries for the mixer and `AwG2dProcess` submits them. The
array of entries is allocated by `AwG2dInit` when the object holds none, and freed
by `AwG2dProcess` when the submission succeeds. `AwG2dInit` writes through the
pointer it was given by `malloc`, which is null when it did not ask.

A C `int` and an address are 32 bits wide and signed expressions wrap. A
product of sizes wraps too, so an array can be smaller than what is written to it:
a write past its whole entries is a fault. Fields that no statement writes, and
that keep what `malloc` left in them, are not modelled unless they are written in
some cases.
-/

namespace IotCamera.Nna.Scaling

open Memory

structure Crop where
  x : Word
  y : Word
  width : Word
  height : Word
  deriving DecidableEq, Repr

structure ScaleTaget where
  sfd : Word
  format : Word
  channel : Word
  w : Word
  h : Word
  addr : Word
  deriving DecidableEq, Repr

structure ScaleInfo where
  usePhyAddr : Word
  src : ScaleTaget
  dst : ScaleTaget
  cropInfo : Crop
  deriving DecidableEq, Repr

structure G2dRect where
  x : Word
  y : Word
  w : Word
  h : Word
  deriving DecidableEq, Repr

structure G2dImageEnh where
  color : Word
  format : Word
  laddr0 : Word
  laddr1 : Word
  laddr2 : Word
  width : Word
  height : Word
  align0 : Word
  align1 : Word
  align2 : Word
  clipRect : G2dRect
  alpha : Byte
  mode : Word
  usePhyAddr : Word
  deriving DecidableEq, Repr

/-- An entry for the mixer. -/
structure MixerPara where
  opFlag : Word
  flagH : Word
  srcImageH : G2dImageEnh
  dstImageH : G2dImageEnh
  deriving DecidableEq, Repr

def opBitblt : Word := 0x2
def g2dBltNoneH : Word := 0x0
def g2dGlobalAlpha : Word := 1
def g2dFormatYuv422UvcV1U1V0U0 : Word := 0x24
def g2dFormatYuv422UvcU1V1U0V0 : Word := 0x25
def g2dFormatYuv422Planar : Word := 0x26
def g2dFormatYuv420UvcV1U1V0U0 : Word := 0x28
def g2dFormatYuv420UvcU1V1U0V0 : Word := 0x29
def g2dFormatYuv420Planar : Word := 0x2a
def g2dFormatY8 : Word := 0x30

/-- The sizes of the two structures on the target: four-byte enumerations and
integers, with the `bool` and the `alpha` byte padded to four. -/
def sizeofScaleInfo : Nat := 68
def sizeofMixerPara : Nat := 416

/-- Why a call does not return. -/
inductive Fault where
  | nullPointer
  | outside
  deriving DecidableEq, Repr

/-- The whole entries of an array of `count` that `malloc` returned, with what was
in its memory. The number of bytes asked for is a product of 32 bits. -/
def mallocArray {α : Type} (sizeof count : Nat) (memory : Nat → α) : List α :=
  (List.range (sizeof * count % 2 ^ 32 / sizeof)).map memory

/-- The addresses of the chrominance planes, which follow the luminance: the last one
begins at a fraction of the number of pixels. -/
def G2dImageEnh.planes (image : G2dImageEnh) (numerator denominator : Word) : G2dImageEnh :=
  { image with
    laddr1 := image.laddr0 + image.width * image.height
    laddr2 := image.laddr0 + (image.width * image.height * numerator).sdiv denominator }

/-- The formats with chrominance at a quarter of the pixels. -/
def isYuv420 (format : Word) : Prop :=
  format = g2dFormatYuv420UvcU1V1U0V0 ∨ format = g2dFormatYuv420Planar ∨
    format = g2dFormatYuv420UvcV1U1V0U0

/-- The formats of a source with chrominance at half of the pixels: one is asked for
twice, and the other order not at all. -/
def isSrcYuv422 (format : Word) : Prop :=
  format = g2dFormatYuv422UvcV1U1V0U0 ∨ format = g2dFormatYuv422Planar ∨
    format = g2dFormatYuv422UvcV1U1V0U0

/-- The formats of a destination with chrominance at half of the pixels. -/
def isDstYuv422 (format : Word) : Prop :=
  format = g2dFormatYuv422UvcV1U1V0U0 ∨ format = g2dFormatYuv422UvcU1V1U0V0 ∨
    format = g2dFormatYuv422Planar

instance (format : Word) : Decidable (isYuv420 format) := inferInstanceAs (Decidable (_ ∨ _ ∨ _))
instance (format : Word) : Decidable (isSrcYuv422 format) := inferInstanceAs (Decidable (_ ∨ _ ∨ _))
instance (format : Word) : Decidable (isDstYuv422 format) := inferInstanceAs (Decidable (_ ∨ _ ∨ _))

/-- What is common to the two images of an entry. -/
def G2dImageEnh.describe (image : G2dImageEnh) (target : ScaleTaget) (clipRect : G2dRect) :
    G2dImageEnh :=
  { image with
    color := 0xFFFFFFFF
    format := target.format
    laddr0 := target.addr
    width := target.w
    height := target.h
    align0 := 0
    align1 := 0
    align2 := 0
    clipRect := clipRect
    alpha := 0
    mode := g2dGlobalAlpha
    usePhyAddr := 1 }

/-- Write one entry over what its memory holds. -/
def MixerPara.fill (entry : MixerPara) (info : ScaleInfo) : MixerPara :=
  let crop := info.cropInfo
  let src := entry.srcImageH.describe info.src ⟨crop.x, crop.y, crop.width, crop.height⟩
  let dst := entry.dstImageH.describe info.dst ⟨0, 0, info.dst.w, info.dst.h⟩
  let src := if isYuv420 src.format then src.planes 5 4 else src
  let src := if isSrcYuv422 src.format then src.planes 3 2 else src
  let dst := if isYuv420 dst.format then dst.planes 5 4 else dst
  let dst := if isDstYuv422 dst.format then dst.planes 3 2 else dst
  ⟨opBitblt, g2dBltNoneH, src, dst⟩

/-- The object that `main` creates once. -/
structure AwG2d where
  g2dFd : Int
  g2dInfoNum : Nat
  g2dInfo : Option (List MixerPara)
  deriving DecidableEq, Repr

/-- A new object, with no array and a count that was not set. -/
def awG2dCreate (g2dFd : Int) (g2dInfoNum : Nat) : AwG2d := ⟨g2dFd, g2dInfoNum, none⟩

structure AwG2dParam where
  g2dTotalNum : Nat
  scaleinfo : List ScaleInfo
  deriving DecidableEq, Repr

/-- Write the entries in order, each from its description. -/
def initLoop : Nat → List ScaleInfo → List MixerPara → Except Fault (List MixerPara)
  | 0, _, entries => .ok entries
  | count + 1, info :: infos, entry :: entries => do
    let rest ← initLoop count infos entries
    return entry.fill info :: rest
  | _ + 1, _, _ => .error .outside

/-- Build the entries: the object, and the array that the local pointer `g2d_info`
leads to. The array is asked for only when the object has none; otherwise the
pointer stays null, and so it does when `malloc` fails. -/
def awG2dInit (self : AwG2d) (param : AwG2dParam) (malloc : Option (Nat → MixerPara)) :
    Except Fault (AwG2d × Option (List MixerPara)) :=
  let self := { self with g2dInfoNum := param.g2dTotalNum }
  let g2dInfo := match self.g2dInfo with
    | none => malloc.map (mallocArray sizeofMixerPara param.g2dTotalNum)
    | some _ => none
  match g2dInfo with
  | none => if param.g2dTotalNum = 0 then .ok (self, none) else .error .nullPointer
  | some entries => do
    let entries ← initLoop param.g2dTotalNum param.scaleinfo entries
    return ({ self with g2dInfo := some entries }, some entries)

/-- What the driver is given. -/
structure Task where
  g2dFd : Int
  g2dInfo : Option (List MixerPara)
  g2dInfoNum : Nat
  deriving DecidableEq, Repr

/-- Submit the entries. Only a submission that succeeds frees the array. -/
def awG2dProcess (self : AwG2d) (ioctl : Int) : AwG2d × Task :=
  let task : Task := ⟨self.g2dFd, self.g2dInfo, self.g2dInfoNum⟩
  if ioctl < 0 then (self, task) else ({ self with g2dInfo := none }, task)

/-- A box as the network lists it. -/
structure Box where
  x1 : Word
  y1 : Word
  x2 : Word
  y2 : Word
  deriving DecidableEq, Repr

/-- One call of the resize handler: its arguments, and the answers of the two
`malloc` calls and of the driver. -/
structure Resize where
  dstAddr : Word
  dstw : Word
  dsth : Word
  srcAddr : Word
  srcw : Word
  srch : Word
  boxList : List Box
  infoMalloc : Option (Nat → ScaleInfo)
  entryMalloc : Option (Nat → MixerPara)
  ioctl : Int

/-- Describe one box over what its memory holds. The descriptors and channels of the
two images are not set. -/
def ScaleInfo.describe (info : ScaleInfo) (resize : Resize) (tmpDst : Word) (box : Box) : ScaleInfo :=
  let cutw := box.x2 - box.x1 + 1
  let cuth := box.y2 - box.y1 + 1
  { usePhyAddr := 1
    src := { info.src with
      addr := resize.srcAddr, w := resize.srcw, h := resize.srch, format := g2dFormatY8 }
    dst := { info.dst with addr := tmpDst, w := resize.dstw, h := resize.dsth, format := g2dFormatY8 }
    cropInfo := ⟨box.x1, box.y1, cutw, cuth⟩ }

/-- Describe the boxes in order, with their results one after another. -/
def scaleLoop (resize : Resize) : Word → List Box → List ScaleInfo → Except Fault (List ScaleInfo)
  | _, [], infos => .ok infos
  | _, _ :: _, [] => .error .outside
  | tmpDst, box :: boxes, info :: infos => do
    let rest ← scaleLoop resize (tmpDst + resize.dstw * resize.dsth) boxes infos
    return info.describe resize tmpDst box :: rest

/-- What a call leaves to look at: the array that `AwG2dInit` built, behind its local
pointer, and the task that was submitted. -/
structure Batch where
  g2dInfo : Option (List MixerPara)
  task : Task
  deriving DecidableEq, Repr

/-- The resize handler. Without memory for the descriptions it returns at once. -/
def nnaHwResizeQg (self : AwG2d) (resize : Resize) : Except Fault (AwG2d × Option Batch) :=
  let boxNum := resize.boxList.length
  match resize.infoMalloc with
  | none => .ok (self, none)
  | some memory => do
    let scaleinfo ← scaleLoop resize resize.dstAddr resize.boxList
      (mallocArray sizeofScaleInfo boxNum memory)
    let (self, g2dInfo) ← awG2dInit self ⟨boxNum, scaleinfo⟩ resize.entryMalloc
    let (self, task) := awG2dProcess self resize.ioctl
    return (self, some ⟨g2dInfo, task⟩)

/-- The object after a call. -/
def step (self : AwG2d) (resize : Resize) : Except (Fault × AwG2d) AwG2d :=
  match nnaHwResizeQg self resize with
  | .ok (after, _) => .ok after
  | .error fault => .error (fault, self)

end IotCamera.Nna.Scaling
