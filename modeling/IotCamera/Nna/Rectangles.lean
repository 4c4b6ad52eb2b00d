import Mathlib.Data.Int.Range
import IotCamera.Base.IntLoops
import IotCamera.Base.Memory
import IotCamera.Base.Writes

/-!
# Drawing rectangles

`osd_helper.c`: `DrawRect_Nv21` draws the four lines of a rectangle into an NV21 frame, a
plane of bytes with the brightness and one of half the height with pairs of bytes for the
colour; `GenRectBuffer` draws a border into a buffer of four bytes a pixel. Both are loops
over rows and columns that write one pixel each.

The arguments of `DrawRect_Nv21` are `int`s of any value, so each sum of two of them and
each place of a row is checked to fit one; `height - 1` and `width - 1` do, as both are
positive. In `GenRectBuffer`, whose border lies inside a buffer, an `int` is an integer.
-/

namespace IotCamera.Nna

open Memory IntLoops

inductive Plane where
  | y
  | vu
  deriving DecidableEq, Repr

/-- A byte written into the frame while the loops stand at a row: the plane, the offset
in it and the value. -/
structure FrameWrite where
  row : Int
  plane : Plane
  offset : Int
  value : Byte
  deriving DecidableEq, Repr

/-- The bytes written at row `i` and column `j`, behind the places of the row. -/
def drawPixel (pSrc pSrc1 i j : Int) : List FrameWrite :=
  [⟨i, .y, pSrc1 + j, 255⟩,
   ⟨i, .vu, pSrc + (2 * (j >>> (1 : Nat)) + 0), 255⟩,
   ⟨i, .vu, pSrc + (2 * (j >>> (1 : Nat)) + 1), 0⟩]

/-- One row of a line: its places in the two planes, then the columns. -/
def drawRow (width stx endx i : Int) : Option (List FrameWrite) := do
  let pSrc ← int (i.tdiv 2 * width)
  let pSrc1 ← int (i * width)
  forUpTo stx endx fun j => some (drawPixel pSrc pSrc1 i j)

/-- The loops of one line, over rows and columns up to and with the last ones. -/
def drawLine (width sty endy stx endx : Int) : Option (List FrameWrite) :=
  forUpTo sty endy (drawRow width stx endx)

/-- A line across, on the rows around `centre`, from `sx` to `ex`, whatever these are. -/
def drawAcross (width height halfline centre sx ex : Int) : Option (List FrameWrite) := do
  let sty := max (← int (centre - halfline)) 0
  let endy := min (← int (centre + halfline)) (height - 1)
  drawLine width sty endy sx ex

/-- A line down, on the columns around `centre`. -/
def drawDown (width height halfline sy ey centre : Int) : Option (List FrameWrite) := do
  let stx := max (← int (centre - halfline)) 0
  let endx := min (← int (centre + halfline)) (width - 1)
  let sty := max (← int (sy - halfline)) 0
  let endy := min (← int (ey + halfline)) (height - 1)
  drawLine width sty endy stx endx

/-- The writes of `DrawRect_Nv21`: the top, the bottom, the left and the right line. -/
def DrawRect_Nv21 (region_w region_h x y w h len_w : Int) : Option (List FrameWrite) := do
  let width := region_w
  let height := region_h
  let sx := x
  let sy := y
  let ex ← int (x + w)
  let ey ← int (y + h)
  let halfline := len_w >>> (1 : Nat)
  let top ← drawAcross width height halfline sy sx ex
  let bottom ← drawAcross width height halfline ey sx ex
  let left ← drawDown width height halfline sy ey sx
  let right ← drawDown width height halfline sy ey ex
  some (top ++ bottom ++ left ++ right)

/-- A write goes to a pixel of the row that the loops stand at, or to the pair of bytes of
such a pixel, which lies in the row of pairs. -/
def FrameWrite.Clipped (width height : Int) (write : FrameWrite) : Prop :=
  (0 ≤ write.row ∧ write.row < height) ∧
    ∃ column, (0 ≤ column ∧ column < width) ∧
      match write.plane with
      | .y => write.offset = write.row * width + column
      | .vu => ∃ part, (part = 0 ∨ part = 1) ∧ 2 * (column / 2) + part < width ∧
        write.offset = write.row / 2 * width + (2 * (column / 2) + part)

/-- The loops are defined, and what they write is clipped. -/
def AllClipped (width height : Int) (writes : Option (List FrameWrite)) : Prop :=
  ∃ written, writes = some written ∧ ∀ write ∈ written, write.Clipped width height

/-- Some row of a line around `centre` is in the frame. -/
def Reaches (height halfline centre : Int) : Prop :=
  0 ≤ halfline ∧ 0 ≤ centre + halfline ∧ centre - halfline < height

instance (height halfline centre : Int) : Decidable (Reaches height halfline centre) :=
  inferInstanceAs (Decidable (_ ∧ _ ∧ _))

/-- The corners of the rectangle and the edges of its lines fit an `int`. -/
def SumsFit (x y w h halfline : Int) : Prop :=
  ∀ sum ∈ [x + w, y + h, y - halfline, y + halfline, y + h - halfline, y + h + halfline,
    x - halfline, x + halfline, x + w - halfline, x + w + halfline], IsInt sum

instance (x y w h halfline : Int) : Decidable (SumsFit x y w h halfline) :=
  inferInstanceAs (Decidable (∀ sum ∈ [_, _, _, _, _, _, _, _, _, _], _))

/-- The place of the last row of the sides, if they have a row in the frame, fits an
`int`. -/
def LastRowFits (width height y h halfline : Int) : Prop :=
  max (y - halfline) 0 ≤ min (y + h + halfline) (height - 1) →
    min (y + h + halfline) (height - 1) * width < 2 ^ 31

instance (width height y h halfline : Int) : Decidable (LastRowFits width height y h halfline) :=
  inferInstanceAs (Decidable (_ → _))

/-- The rows of a line around `centre`, cut to the frame, are there when it reaches the
frame. -/
theorem rows_iff_reaches (height halfline centre : Int) (some : 0 < height) :
    max (centre - halfline) 0 ≤ min (centre + halfline) (height - 1) ↔
      Reaches height halfline centre := by
  rw [Reaches]
  omega

/-- The sums one by one. -/
theorem sums_fit_iff (x y w h halfline : Int) :
    SumsFit x y w h halfline ↔
      IsInt (x + w) ∧ IsInt (y + h) ∧ IsInt (y - halfline) ∧ IsInt (y + halfline) ∧
        IsInt (y + h - halfline) ∧ IsInt (y + h + halfline) ∧ IsInt (x - halfline) ∧
        IsInt (x + halfline) ∧ IsInt (x + w - halfline) ∧ IsInt (x + w + halfline) := by
  simp only [SumsFit, List.forall_mem_cons, List.not_mem_nil, false_implies, implies_true, and_true]

/-- A pixel of the frame is written in its row, and so is its pair. -/
theorem pixel_clipped (width height i j : Int) (even : width % 2 = 0) (row : 0 ≤ i ∧ i < height)
    (column : 0 ≤ j ∧ j < width) :
    ∀ write ∈ drawPixel (i.tdiv 2 * width) (i * width) i j, write.Clipped width height := by
  have half : i.tdiv 2 = i / 2 := Int.tdiv_eq_ediv_of_nonneg row.1
  have shift : j >>> (1 : Nat) = j / 2 := Int.shiftRight_eq_div_pow j 1
  intro write here
  simp only [drawPixel, List.mem_cons, List.not_mem_nil, or_false] at here
  rcases here with rfl | rfl | rfl
  · exact ⟨row, j, column, rfl⟩
  · refine ⟨row, j, column, 0, Or.inl rfl, by omega, ?_⟩
    simp only [half, shift]
  · refine ⟨row, j, column, 1, Or.inr rfl, by omega, ?_⟩
    simp only [half, shift]

/-- A pixel outside of the columns of the frame is not written in its row. -/
theorem pixel_clipped_column (width height pSrc i j : Int)
    (clipped : ∀ write ∈ drawPixel pSrc (i * width) i j, write.Clipped width height) :
    0 ≤ j ∧ j < width := by
  obtain ⟨-, column, inside, place⟩ := clipped ⟨i, .y, i * width + j, 255⟩ List.mem_cons_self
  obtain rfl : j = column := Int.add_left_cancel place
  exact inside

section Line
variable (width height stx endx : Int) (even : width % 2 = 0)
  (wide : 0 < width ∧ width < 2 ^ 31) (least : -2 ^ 31 ≤ stx)

include even wide least

/-- A row is written in its row exactly when its place fits an `int` and its columns, if
there are any, are in the frame. -/
theorem row_clipped_iff (i : Int) (row : 0 ≤ i ∧ i < height) :
    AllClipped width height (drawRow width stx endx i) ↔
      i * width < 2 ^ 31 ∧ (stx ≤ endx → 0 ≤ stx ∧ endx < width) := by
  have half : i.tdiv 2 = i / 2 := Int.tdiv_eq_ediv_of_nonneg row.1
  have nonneg : 0 ≤ i * width := Int.mul_nonneg row.1 wide.1.le
  have smaller : i.tdiv 2 * width ≤ i * width :=
    Int.mul_le_mul_of_nonneg_right (by omega) wide.1.le
  have also : 0 ≤ i.tdiv 2 * width := Int.mul_nonneg (by omega) wide.1.le
  by_cases fits : i * width < 2 ^ 31
  · have place : int (i * width) = some (i * width) := if_pos ⟨by omega, fits⟩
    have pair : int (i.tdiv 2 * width) = some (i.tdiv 2 * width) := if_pos ⟨by omega, by omega⟩
    have columns : drawRow width stx endx i = forUpTo stx endx fun j =>
        some (drawPixel (i.tdiv 2 * width) (i * width) i j) := by
      simp only [drawRow, pair, place, Option.bind_eq_bind, Option.bind_some]
    rw [AllClipped, columns, for_up_to_iff _ _ _ _ least, and_iff_right fits]
    constructor
    · rintro ⟨-, columns⟩ some
      have inside : ∀ j, stx ≤ j → j ≤ endx → 0 ≤ j ∧ j < width := by
        intro j left right
        obtain ⟨part, made, clipped⟩ := columns j left right
        obtain rfl := Option.some.inj made
        exact pixel_clipped_column width height _ i j clipped
      exact ⟨(inside stx (Int.le_refl stx) some).1, (inside endx some (Int.le_refl endx)).2⟩
    · intro inside
      refine ⟨fun some => ?_, ?_⟩
      · have last := (inside some).2
        omega
      · intro j left right
        have both := inside (left.trans right)
        exact ⟨_, rfl, pixel_clipped width height i j even row ⟨by omega, by omega⟩⟩
  · refine iff_of_false ?_ fun parts => fits parts.1
    rintro ⟨written, drawn, -⟩
    simp only [drawRow, Option.bind_eq_bind, Option.bind_eq_some_iff, int_eq_some_iff] at drawn
    obtain ⟨_, -, place, ⟨small, -⟩, -⟩ := drawn
    exact fits small.2

/-- The writes of a line whose rows are cut to the frame are clipped exactly when, if it
has rows, the place of the last one fits an `int` and its columns, if there are any, are
in the frame. -/
theorem line_clipped_iff (sty endy : Int) (high : height < 2 ^ 31) (top : 0 ≤ sty)
    (bottom : endy < height) :
    AllClipped width height (drawLine width sty endy stx endx) ↔
      (sty ≤ endy → endy * width < 2 ^ 31 ∧ (stx ≤ endx → 0 ≤ stx ∧ endx < width)) := by
  have row := row_clipped_iff width height stx endx even wide least
  rw [AllClipped, drawLine, for_up_to_iff _ _ _ _ (by omega)]
  constructor
  · rintro ⟨-, rows⟩ some
    exact (row endy ⟨by omega, bottom⟩).mp (rows endy some (Int.le_refl endy))
  · intro inside
    refine ⟨fun _ => by omega, ?_⟩
    intro i above below
    obtain ⟨last, columns⟩ := inside (above.trans below)
    have smaller : i * width ≤ endy * width := Int.mul_le_mul_of_nonneg_right below wide.1.le
    exact (row i ⟨by omega, by omega⟩).mpr ⟨by omega, columns⟩

end Line

section Sums
variable (width height halfline : Int)

/-- A loop that needs an expression is defined only when its value fits an `int`. -/
theorem all_clipped_int (value : Int) (next : Int → Option (List FrameWrite)) :
    AllClipped width height (int value >>= next) ↔
      IsInt value ∧ AllClipped width height (next value) := by
  unfold int
  split
  · exact (and_iff_right ‹IsInt value›).symm
  · refine iff_of_false ?_ fun parts => absurd parts.1 ‹¬ IsInt value›
    rintro ⟨written, undefined, -⟩
    cases undefined

/-- A line across is clipped when its edges fit an `int` and its loops are clipped. -/
theorem across_clipped_iff (centre sx ex : Int) :
    AllClipped width height (drawAcross width height halfline centre sx ex) ↔
      IsInt (centre - halfline) ∧ IsInt (centre + halfline) ∧ AllClipped width height
        (drawLine width (max (centre - halfline) 0) (min (centre + halfline) (height - 1)) sx ex) := by
  rw [drawAcross, all_clipped_int, all_clipped_int]

/-- So is a line down. -/
theorem down_clipped_iff (sy ey centre : Int) :
    AllClipped width height (drawDown width height halfline sy ey centre) ↔
      IsInt (centre - halfline) ∧ IsInt (centre + halfline) ∧ IsInt (sy - halfline) ∧
        IsInt (ey + halfline) ∧ AllClipped width height
          (drawLine width (max (sy - halfline) 0) (min (ey + halfline) (height - 1))
            (max (centre - halfline) 0) (min (centre + halfline) (width - 1))) := by
  rw [drawDown, all_clipped_int, all_clipped_int, all_clipped_int, all_clipped_int]

/-- Lines drawn one after the other are clipped when each is. -/
theorem four_clipped_iff (top bottom left right : Option (List FrameWrite)) :
    AllClipped width height (do some ((← top) ++ (← bottom) ++ (← left) ++ (← right))) ↔
      AllClipped width height top ∧ AllClipped width height bottom ∧
        AllClipped width height left ∧ AllClipped width height right := by
  cases top <;> cases bottom <;> cases left <;> cases right <;>
    simp [AllClipped, or_imp, forall_and]

end Sums

/-- A rectangle is clipped to the frame exactly when its sums and the place of its last row
fit an `int`, and its top and its bottom line, if they reach the frame, do not leave it to
the left or to the right. -/
theorem rectangle_clipped_iff (region_w region_h x y w h len_w : Int)
    (ints : ∀ argument ∈ [region_w, region_h, x, y, w, h, len_w], IsInt argument)
    (even : region_w % 2 = 0) (wide : 0 < region_w) (high : 0 < region_h) (across : 0 ≤ w)
    (down : 0 ≤ h) :
    AllClipped region_w region_h (DrawRect_Nv21 region_w region_h x y w h len_w) ↔
      SumsFit x y w h (len_w >>> (1 : Nat)) ∧
        LastRowFits region_w region_h y h (len_w >>> (1 : Nat)) ∧
        (Reaches region_h (len_w >>> (1 : Nat)) y ∨ Reaches region_h (len_w >>> (1 : Nat)) (y + h) →
          0 ≤ x ∧ x + w < region_w) := by
  have columns : x ≤ x + w := by omega
  have widest : region_w < 2 ^ 31 := (ints region_w (by simp)).2
  have highest : region_h < 2 ^ 31 := (ints region_h (by simp)).2
  have leftmost : -2 ^ 31 ≤ x := (ints x (by simp)).1
  unfold DrawRect_Nv21
  generalize len_w >>> (1 : Nat) = halfline
  simp only [all_clipped_int, four_clipped_iff, across_clipped_iff, down_clipped_iff, sums_fit_iff]
  have line := fun sty endy stx endx least =>
    line_clipped_iff region_w region_h stx endx even ⟨wide, widest⟩ least sty endy highest
  have top := line (max (y - halfline) 0) (min (y + halfline) (region_h - 1)) x (x + w)
    leftmost (by omega) (by omega)
  have bottom := line (max (y + h - halfline) 0) (min (y + h + halfline) (region_h - 1)) x
    (x + w) leftmost (by omega) (by omega)
  have left := line (max (y - halfline) 0) (min (y + h + halfline) (region_h - 1))
    (max (x - halfline) 0) (min (x + halfline) (region_w - 1)) (by omega) (by omega) (by omega)
  have right := line (max (y - halfline) 0) (min (y + h + halfline) (region_h - 1))
    (max (x + w - halfline) 0) (min (x + w + halfline) (region_w - 1)) (by omega) (by omega) (by omega)
  rw [rows_iff_reaches region_h halfline y high] at top
  rw [rows_iff_reaches region_h halfline (y + h) high] at bottom
  rw [top, bottom, left, right]
  -- The rows of the sides go on at least as far as those of the top and the bottom line.
  have smaller : min (y + halfline) (region_h - 1) * region_w ≤
      min (y + h + halfline) (region_h - 1) * region_w :=
    Int.mul_le_mul_of_nonneg_right (by omega) wide.le
  have upper : Reaches region_h halfline y →
      max (y - halfline) 0 ≤ min (y + h + halfline) (region_h - 1) := by
    rw [Reaches]
    omega
  have lower : Reaches region_h halfline (y + h) →
      max (y - halfline) 0 ≤ min (y + h + halfline) (region_h - 1) := by
    rw [Reaches]
    omega
  constructor
  · rintro ⟨ex, ey, ⟨-, underTop, first⟩, ⟨overBottom, -, second⟩,
      ⟨leftmost, leftEnd, overTop, underBottom, sides⟩, rightmost, rightEnd, -, -, -⟩
    refine ⟨?_, fun rows => (sides rows).1, ?_⟩
    · exact ⟨ex, ey, overTop, underTop, overBottom, underBottom, leftmost, leftEnd, rightmost, rightEnd⟩
    · rintro (reached | reached)
      · exact (first reached).2 columns
      · exact (second reached).2 columns
  · rintro ⟨⟨ex, ey, overTop, underTop, overBottom, underBottom, leftmost, leftEnd, rightmost,
      rightEnd⟩, fits, inside⟩
    refine ⟨ex, ey, ⟨overTop, underTop, fun reached => ⟨?_, fun _ => inside (Or.inl reached)⟩⟩,
      ⟨overBottom, underBottom, fun reached => ⟨?_, fun _ => inside (Or.inr reached)⟩⟩,
      ⟨leftmost, leftEnd, overTop, underBottom, fun rows => ⟨fits rows, fun _ => by omega⟩⟩,
      rightmost, rightEnd, overTop, underBottom, fun rows => ⟨fits rows, fun _ => by omega⟩⟩
    · exact lt_of_le_of_lt smaller (fits (upper reached))
    · exact fits (lower reached)

/-- A rectangle that leaves the frame above is clipped. -/
theorem rectangle_clipped_inside :
    (¬ Reaches 480 2 (-20) ∧ Reaches 480 2 70) ∧
      AllClipped 640 480 (DrawRect_Nv21 640 480 100 (-20) 50 90 4) :=
  ⟨by decide, (rectangle_clipped_iff 640 480 100 (-20) 50 90 4 (by decide) (by decide) (by decide)
    (by decide) (by decide) (by decide)).mpr ⟨by decide, by decide, fun _ => by decide⟩⟩

/-- A rectangle that begins ten columns to the left of the frame is drawn into the row
above. -/
theorem rectangle_wraps_around :
    (∃ written, DrawRect_Nv21 640 480 (-10) 10 20 20 2 = some written ∧
        ⟨10, .y, 9 * 640 + 630, 255⟩ ∈ written) ∧
      ¬ AllClipped 640 480 (DrawRect_Nv21 640 480 (-10) 10 20 20 2) := by
  have drawn : ∃ written, DrawRect_Nv21 640 480 (-10) 10 20 20 2 = some written ∧
      ⟨10, .y, 9 * 640 + 630, 255⟩ ∈ written :=
    ⟨(DrawRect_Nv21 640 480 (-10) 10 20 20 2).getD [], by decide +kernel, by decide +kernel⟩
  refine ⟨drawn, ?_⟩
  rintro ⟨written, same, clipped⟩
  obtain ⟨again, made, member⟩ := drawn
  obtain rfl := Option.some.inj (same.symm.trans made)
  obtain ⟨-, column, inside, place⟩ := clipped _ member
  simp only at place
  omega

/-- The four bytes of a pixel: blue, green, red and opacity. -/
def paintPixel (region_w row col : Int) : List (Int × Byte) :=
  [(row * region_w * 4 + col * 4 + 0, 0), (row * region_w * 4 + col * 4 + 1, 0),
   (row * region_w * 4 + col * 4 + 2, 255), (row * region_w * 4 + col * 4 + 3, 255)]

/-- The loops of one side of the border. -/
def paintBorder (region_w rowStart rowEnd colStart colEnd : Int) : List (Int × Byte) :=
  (Int.range rowStart rowEnd).flatMap fun row =>
    (Int.range colStart colEnd).flatMap fun col => paintPixel region_w row col

/-- `GenRectBuffer`: the left, the right, the upper and the lower border. Three of the
arguments are not used. -/
def GenRectBuffer (pRGB8888 : Int → Byte) (region_w _region_h _x _y w h len_w : Int) : Int → Byte :=
  Writes.store pRGB8888
    (paintBorder region_w 0 h 0 len_w ++ paintBorder region_w 0 h (w - 1 - len_w) w ++
      paintBorder region_w 0 len_w 0 w ++ paintBorder region_w (h - 1 - len_w) h 0 w)

/-- The bytes of an opaque red pixel. -/
def opaqueRed (channel : Int) : Byte := if channel < 2 then 0 else 255

/-- A pixel lies less than `len_w` pixels from an edge of the rectangle. -/
def Bordered (w h len_w row col : Int) : Prop :=
  (0 ≤ row ∧ row < h) ∧ (0 ≤ col ∧ col < w) ∧
    (col < len_w ∨ w - len_w ≤ col ∨ row < len_w ∨ h - len_w ≤ row)

/-- The bytes of the bordered pixels are opaque red, and all others are as before. -/
def UniformBorder (region_w w h len_w : Int) (before after : Int → Byte) : Prop :=
  (∀ row col channel, Bordered w h len_w row col → 0 ≤ channel ∧ channel < 4 →
      after (row * region_w * 4 + col * 4 + channel) = opaqueRed channel) ∧
    ∀ place, (∀ row col channel, Bordered w h len_w row col → 0 ≤ channel ∧ channel < 4 →
      place ≠ row * region_w * 4 + col * 4 + channel) → after place = before place

/-- The pixels that are painted: on two sides the border is one pixel wider. -/
def Painted (w h len_w row col : Int) : Prop :=
  (0 ≤ row ∧ row < h) ∧ (0 ≤ col ∧ col < w) ∧
    (col < len_w ∨ w - 1 - len_w ≤ col ∨ row < len_w ∨ h - 1 - len_w ≤ row)

/-- The writes of one side. -/
theorem mem_paint_border (region_w rowStart rowEnd colStart colEnd : Int) (write : Int × Byte) :
    write ∈ paintBorder region_w rowStart rowEnd colStart colEnd ↔
      ∃ row col channel, (rowStart ≤ row ∧ row < rowEnd) ∧ (colStart ≤ col ∧ col < colEnd) ∧
        (0 ≤ channel ∧ channel < 4) ∧
        write = (row * region_w * 4 + col * 4 + channel, opaqueRed channel) := by
  simp only [paintBorder, List.mem_flatMap, Int.mem_range_iff, paintPixel, List.mem_cons,
    List.not_mem_nil, or_false]
  constructor
  · rintro ⟨row, rows, col, columns, rfl | rfl | rfl | rfl⟩
    · exact ⟨row, col, 0, rows, columns, by decide, rfl⟩
    · exact ⟨row, col, 1, rows, columns, by decide, rfl⟩
    · exact ⟨row, col, 2, rows, columns, by decide, rfl⟩
    · exact ⟨row, col, 3, rows, columns, by decide, rfl⟩
  · rintro ⟨row, col, channel, rows, columns, ⟨least, most⟩, rfl⟩
    refine ⟨row, rows, col, columns, ?_⟩
    obtain rfl | rfl | rfl | rfl : channel = 0 ∨ channel = 1 ∨ channel = 2 ∨ channel = 3 := by omega
    · exact Or.inl rfl
    · exact Or.inr (Or.inl rfl)
    · exact Or.inr (Or.inr (Or.inl rfl))
    · exact Or.inr (Or.inr (Or.inr rfl))

/-- Pixels inside the rows of the buffer have bytes of their own. -/
theorem pixel_bytes_apart (region_w row col channel row' col' channel' : Int)
    (inside : 0 ≤ col ∧ col < region_w) (inside' : 0 ≤ col' ∧ col' < region_w)
    (bytes : 0 ≤ channel ∧ channel < 4) (bytes' : 0 ≤ channel' ∧ channel' < 4)
    (same : row * region_w * 4 + col * 4 + channel = row' * region_w * 4 + col' * 4 + channel') :
    row = row' ∧ col = col' ∧ channel = channel' := by
  have byte : channel = channel' := by omega
  have place : col + row * region_w = col' + row' * region_w := by omega
  have column : col = col' := by
    have left := Int.add_mul_emod_self_right col row region_w
    have right := Int.add_mul_emod_self_right col' row' region_w
    rw [Int.emod_eq_of_lt inside.1 inside.2] at left
    rw [Int.emod_eq_of_lt inside'.1 inside'.2] at right
    rw [← left, ← right, place]
  have line : row * region_w = row' * region_w := by omega
  exact ⟨Int.eq_of_mul_eq_mul_right (by omega) line, column, byte⟩

section Border
variable (pRGB8888 : Int → Byte) (region_w region_h x y w h len_w : Int)

/-- The writes of the four loops, when the border fits the rectangle. -/
theorem mem_four_borders (some : 0 < len_w) (narrow : 2 * len_w ≤ w) (low : 2 * len_w ≤ h)
    (write : Int × Byte) :
    write ∈ paintBorder region_w 0 h 0 len_w ++ paintBorder region_w 0 h (w - 1 - len_w) w ++
        paintBorder region_w 0 len_w 0 w ++ paintBorder region_w (h - 1 - len_w) h 0 w ↔
      ∃ row col channel, Painted w h len_w row col ∧ (0 ≤ channel ∧ channel < 4) ∧
        write = (row * region_w * 4 + col * 4 + channel, opaqueRed channel) := by
  simp only [List.mem_append, mem_paint_border, Painted]
  constructor
  · rintro (((here | here) | here) | here) <;>
      obtain ⟨row, col, channel, rows, columns, byte, rfl⟩ := here <;>
      exact ⟨row, col, channel, by omega, byte, rfl⟩
  · rintro ⟨row, col, channel, ⟨rows, columns, side⟩, byte, rfl⟩
    rcases side with left | right | upper | lower
    · exact Or.inl (Or.inl (Or.inl ⟨row, col, channel, rows, by omega, byte, rfl⟩))
    · exact Or.inl (Or.inl (Or.inr ⟨row, col, channel, rows, by omega, byte, rfl⟩))
    · exact Or.inl (Or.inr ⟨row, col, channel, by omega, columns, byte, rfl⟩)
    · exact Or.inr ⟨row, col, channel, by omega, columns, byte, rfl⟩

/-- A painted pixel is opaque red. -/
theorem gen_rect_painted (some : 0 < len_w) (narrow : 2 * len_w ≤ w) (low : 2 * len_w ≤ h)
    (row col channel : Int) (painted : Painted w h len_w row col) (byte : 0 ≤ channel ∧ channel < 4) :
    GenRectBuffer pRGB8888 region_w region_h x y w h len_w (row * region_w * 4 + col * 4 + channel) =
      opaqueRed channel := by
  have writes := mem_four_borders region_w w h len_w some narrow low
  apply Writes.store_inside
  · exact ⟨_, (writes _).mpr ⟨row, col, channel, painted, byte, rfl⟩, rfl⟩
  · intro write member here
    obtain ⟨row', col', channel', -, byte', rfl⟩ := (writes write).mp member
    -- The channel is the place modulo four, in whichever pixel it is.
    have same : channel' = channel := by
      simp only at here
      omega
    rw [same]

/-- A byte of no painted pixel is as it was. -/
theorem gen_rect_unpainted (some : 0 < len_w) (narrow : 2 * len_w ≤ w) (low : 2 * len_w ≤ h)
    (place : Int) (outside : ∀ row col channel, Painted w h len_w row col →
      0 ≤ channel ∧ channel < 4 → place ≠ row * region_w * 4 + col * 4 + channel) :
    GenRectBuffer pRGB8888 region_w region_h x y w h len_w place = pRGB8888 place := by
  apply Writes.store_outside
  intro write member here
  obtain ⟨row, col, channel, painted, byte, rfl⟩ :=
    (mem_four_borders region_w w h len_w some narrow low write).mp member
  exact outside row col channel painted byte here.symm

end Border

/-- The border is uniform exactly when there is nothing inside it: on the right and below
it is one pixel wider than on the left and above. -/
theorem border_uniform_iff (region_w region_h x y w h len_w : Int) (some : 0 < 2 * len_w)
    (fits : 2 * len_w ≤ min w h) (within : w ≤ region_w) :
    (∀ pRGB8888, UniformBorder region_w w h len_w pRGB8888
        (GenRectBuffer pRGB8888 region_w region_h x y w h len_w)) ↔
      w = 2 * len_w ∨ h = 2 * len_w := by
  constructor
  · intro uniform
    by_contra inner
    -- The pixel at the corner of the wider border, which no border should reach.
    have painted : Painted w h len_w len_w (w - 1 - len_w) := by
      rw [Painted]
      omega
    have red := gen_rect_painted (fun _ => 1) region_w region_h x y w h len_w (by omega) (by omega)
      (by omega) len_w (w - 1 - len_w) 0 painted (by decide)
    have kept := (uniform fun _ => 1).2 (len_w * region_w * 4 + (w - 1 - len_w) * 4 + 0) ?_
    · rw [red] at kept
      exact absurd kept (show opaqueRed 0 ≠ 1 by decide)
    · intro row col channel bordered byte same
      have columns := bordered.2.1
      obtain ⟨rfl, rfl, -⟩ := pixel_bytes_apart region_w len_w (w - 1 - len_w) 0 row col channel
        (by omega) (by omega) (by decide) byte same
      rw [Bordered] at bordered
      omega
  · intro full pRGB8888
    have same : ∀ row col, Painted w h len_w row col ↔ Bordered w h len_w row col := by
      intro row col
      rw [Painted, Bordered]
      omega
    constructor
    · intro row col channel bordered byte
      exact gen_rect_painted pRGB8888 region_w region_h x y w h len_w (by omega) (by omega) (by omega)
        row col channel ((same row col).mpr bordered) byte
    · intro place outside
      apply gen_rect_unpainted pRGB8888 region_w region_h x y w h len_w (by omega) (by omega) (by omega)
      intro row col channel painted byte
      exact outside row col channel ((same row col).mp painted) byte

/-- A border that fills its rectangle is uniform. -/
theorem border_uniform_full :
    GenRectBuffer (fun _ => 1) 8 8 0 0 4 6 2 (3 * 8 * 4 + 1 * 4 + 2) = 255 ∧
      ∀ pRGB8888, UniformBorder 8 4 6 2 pRGB8888 (GenRectBuffer pRGB8888 8 8 0 0 4 6 2) :=
  ⟨by decide, (border_uniform_iff 8 8 0 0 4 6 2 (by decide) (by decide) (by decide)).mpr
    (by decide)⟩

/-- In a rectangle of five by five pixels with a border of one, the pixel in row 1 and
column 3 is painted. -/
theorem border_too_wide :
    (¬ Bordered 5 5 1 1 3) ∧
      GenRectBuffer (fun _ => 1) 5 5 0 0 5 5 1 (1 * 5 * 4 + 3 * 4 + 2) = 255 ∧
      ¬ UniformBorder 5 5 5 1 (fun _ => 1) (GenRectBuffer (fun _ => 1) 5 5 0 0 5 5 1) := by
  have inner : ¬ Bordered 5 5 1 1 3 := by
    rw [Bordered]
    omega
  have red : GenRectBuffer (fun _ => 1) 5 5 0 0 5 5 1 (1 * 5 * 4 + 3 * 4 + 2) = 255 := by decide
  refine ⟨inner, red, fun uniform => ?_⟩
  have kept := uniform.2 (1 * 5 * 4 + 3 * 4 + 2) ?_
  · rw [red] at kept
    revert kept
    decide
  · intro row col channel bordered byte same
    have columns := bordered.2.1
    obtain ⟨rfl, rfl, -⟩ := pixel_bytes_apart 5 1 3 2 row col channel (by decide) columns (by decide)
      byte same
    exact inner bordered

end IotCamera.Nna
