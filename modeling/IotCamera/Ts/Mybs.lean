import IotCamera.Base.Memory

/-!
# The bit reader

A reader stands in a byte buffer at a byte position, with a number of bits of
that byte still unread. The exclusive end may lie before the start, since the
caller computes it from a length that can be minus one; every access is guarded
by the comparison with the end, as in the source.

Results are 32-bit patterns. On the arm target a left shift by thirty-two gives
zero, which is also what shifting a bit vector does; whether such a shift is
ever performed is a question about the counter and not about this value.
-/

namespace IotCamera.Mybs

open Memory

/-- Position, exclusive end and unread bits of the current byte, over the bytes
from the start of the buffer on. -/
structure Bs where
  pStart : Nat → Byte
  p : Nat
  pEnd : Int
  iLeft : Int

/-- Start at the first bit of `iData` bytes. -/
def bsInit (pData : Nat → Byte) (iData : Int) : Bs := ⟨pData, 0, iData, 8⟩

/-- The byte the reader stands on. -/
def Bs.current (s : Bs) : Word := promote (s.pStart s.p)

/-- Leave the current byte once its last bit is read. -/
def Bs.settle (s : Bs) : Bs := if s.iLeft = 0 then { s with p := s.p + 1, iLeft := 8 } else s

/-- The low `count` bits set: the entry of the mask table. -/
def iMask (count : Int) : Word := BitVec.ofNat 32 (2 ^ count.toNat - 1)

/-- The reading loop. A pass either answers from the current byte or takes the
rest of it and moves on, so the bytes before the end bound the number of passes
and the fuel is exactly that number. -/
def bsReadLoop : Nat → Bs → Int → Word → Word × Bs
  | 0, s, _, iResult => (iResult, s)
  | bytes + 1, s, iCount, iResult =>
    if 0 < iCount then
      let iShr := s.iLeft - iCount
      if 0 ≤ iShr then
        (iResult ||| (s.current >>> iShr.toNat &&& iMask iCount),
          { s with iLeft := s.iLeft - iCount }.settle)
      else
        bsReadLoop bytes { s with p := s.p + 1, iLeft := 8 } (iCount - s.iLeft)
          (iResult ||| (s.current &&& iMask s.iLeft) <<< (-iShr).toNat)
    else (iResult, s)

/-- Read `iCount` bits, most significant first; the end of the buffer cuts the
read short. -/
def bsRead (s : Bs) (iCount : Int) : Word × Bs :=
  bsReadLoop (s.pEnd - s.p).toNat s iCount 0

/-- Read one bit; zero past the end. -/
def bsRead1 (s : Bs) : Word × Bs :=
  if (s.p : Int) < s.pEnd then
    let s := { s with iLeft := s.iLeft - 1 }
    (s.current >>> s.iLeft.toNat &&& 0x01, s.settle)
  else (0, s)

/-- Count zero bits up to the first one, the end of the buffer or thirty-two.
The first argument is thirty-two less the count so far. -/
def bsReadUeLoop : Nat → Bs → Nat → Nat × Bs
  | budget, s, i =>
    let (bit, s) := bsRead1 s
    if bit = 0 ∧ (s.p : Int) < s.pEnd then
      match budget with
      | 0 => (i, s)
      | left + 1 => bsReadUeLoop left s (i + 1)
    else (i, s)

/-- One unsigned Exp-Golomb code. -/
def bsReadUe (s : Bs) : Word × Bs :=
  let (i, s) := bsReadUeLoop 32 s 0
  let (rest, s) := bsRead s i
  ((1#32 <<< i) - 1 + rest, s)

end IotCamera.Mybs
