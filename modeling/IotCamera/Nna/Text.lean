import IotCamera.Base.Memory
import IotCamera.Base.Writes

/-!
# Rendering text

`osd_helper.c`: `GenTextBuffer` scans a string for bytes below 128, which are characters
of eight by sixteen pixels, and for pairs with a lead byte of at least 128, which are
characters of sixteen by sixteen. `FillCode` copies the bitmap of each into a text buffer
of one bit a pixel, whose rows have a byte for each byte of the string;
`TransCode2RGB8888` then expands the bits to pixels of four bytes.

The two font files are not part of the program. It is taken for granted that each lookup
fills the buffer with the bitmap of its own character.
-/

namespace IotCamera.Nna

open Memory

def FONTSIZE : Nat := 16

/-- A string with its terminator behind it, and none inside. -/
structure CString where
  bytes : List Byte
  terminated : ∀ byte ∈ bytes, byte ≠ 0

def CString.strlen (szText : CString) : Nat := szText.bytes.length

/-- The byte at an index up to the terminator. -/
def CString.get (szText : CString) (index : Nat) : Byte := szText.bytes.getD index 0

/-- The bitmaps that `Get_Asc_Code` and `Get_HzK_Code` look up. -/
structure Fonts where
  asc : Byte → Nat → Byte
  hzk : Byte → Byte → Nat → Byte

/-- The writes of `FillCode` into the text buffer. Bitmaps of single bytes are sunk by two
rows and lose their last two. -/
def FillCode (textlen : Nat) (pBuffer : Nat → Byte) (pos font_size : Nat) (bEnglish : Bool) :
    List (Nat × Byte) :=
  let offset := pos * font_size / 8 / 2
  let stride := textlen * font_size / 8 / 2
  let width := if bEnglish then font_size / 2 / 8 else font_size / 8
  let sink := if bEnglish then 2 else 0
  (List.range (font_size - sink)).flatMap fun row =>
    (List.range width).map fun col =>
      (offset + col + (row + sink) * stride, pBuffer (col + row * width))

/-- The bytes of a pixel. -/
def rgb8888 (black : Bool) : List Byte := if black then [0, 0, 0, 255] else [255, 255, 255, 255]

/-- The writes of `TransCode2RGB8888`. -/
def TransCode2RGB8888 (pTextBuffer : Nat → Byte) (width height : Nat) : List (Nat × Byte) :=
  (List.range height).flatMap fun row =>
    (List.range width).flatMap fun col =>
      (List.range 8).flatMap fun k =>
        (List.range 4).map fun byte =>
          (row * width * 8 * 4 + col * 8 * 4 + k * 4 + byte,
            (rgb8888 (promote (pTextBuffer (row * width + col)) &&& (0x80 : Word) >>> k ≠ 0)).getD byte 0)

/-- One pass of the loop: where it stood, how many bytes it took, what it read of the
string and what it wrote. -/
structure Pass where
  index : Nat
  taken : Nat
  reads : List Nat
  writes : List (Nat × Byte)
  deriving DecidableEq, Repr

/-- The passes of the loop from an index on, and the index at which it ends. A loop that
has not ended after the given number of passes has no result. -/
def scan (fonts : Fonts) (szText : CString) : Nat → Nat → Option (List Pass × Nat)
  | 0, index => if index < szText.strlen then none else some ([], index)
  | passes + 1, index =>
    if index < szText.strlen then
      if (szText.get index).toNat < 128 then
        let writes := FillCode szText.strlen (fonts.asc (szText.get index)) index FONTSIZE true
        (scan fonts szText passes (index + 1)).map fun rest =>
          (⟨index, 1, [index], writes⟩ :: rest.1, rest.2)
      else
        let writes := FillCode szText.strlen (fonts.hzk (szText.get index) (szText.get (index + 1)))
          index FONTSIZE false
        (scan fonts szText passes (index + 2)).map fun rest =>
          (⟨index, 2, [index, index, index + 1], writes⟩ :: rest.1, rest.2)
    else some ([], index)

/-- The loop of `GenTextBuffer`: each pass advances, so there are at most as many as
bytes. -/
def textLoop (fonts : Fonts) (szText : CString) : Option (List Pass × Nat) :=
  scan fonts szText szText.strlen 0

/-- `GenTextBuffer`: both buffers afterwards. -/
def GenTextBuffer (fonts : Fonts) (szText : CString) (pTextBuffer pRGB8888 : Nat → Byte) :
    Option ((Nat → Byte) × (Nat → Byte)) :=
  let count := szText.strlen
  let cleared := fun place =>
    if place < FONTSIZE * FONTSIZE / 2 / 8 * count then 0 else pTextBuffer place
  (textLoop fonts szText).map fun result =>
    let filled := Writes.store cleared (result.1.flatMap Pass.writes)
    (filled, Writes.store pRGB8888 (TransCode2RGB8888 filled count FONTSIZE))

/-- A byte below 128, or a pair with a lead byte of at least 128. -/
inductive Character where
  | single (code : Byte) (ascii : code.toNat < 128)
  | pair (lead trail : Byte) (high : 128 ≤ lead.toNat)

def Character.bytes : Character → List Byte
  | .single code _ => [code]
  | .pair lead trail _ => [lead, trail]

/-- The bytes of characters one after the other. -/
def spelled (characters : List Character) : List Byte := characters.flatMap Character.bytes

/-- The bytes of a text begin with those of its first character. -/
theorem spelled_cons_length (character : Character) (rest : List Character) :
    (spelled (character :: rest)).length = character.bytes.length + (spelled rest).length := by
  rw [spelled, List.flatMap_cons, List.length_append, spelled]

/-- Where the characters behind the first begin. -/
theorem spelled_behind {index count : Nat} {character : Character} {rest : List Character}
    (ends : index + (spelled (character :: rest)).length = count) :
    index + character.bytes.length + (spelled rest).length = count := by
  rw [← ends, spelled_cons_length, Nat.add_assoc]

/-- The byte in a row of the bitmap of the character that covers a byte of the text. -/
def glyphByte (fonts : Fonts) : List Character → Nat → Nat → Byte
  | [], _, _ => 0
  | .single code _ :: rest, column, row =>
    match column with
    | 0 => if row < 2 then 0 else fonts.asc code (row - 2)
    | column + 1 => glyphByte fonts rest column row
  | .pair lead trail _ :: rest, column, row =>
    match column with
    | 0 => fonts.hzk lead trail (2 * row)
    | 1 => fonts.hzk lead trail (2 * row + 1)
    | column + 2 => glyphByte fonts rest column row

section Filling
variable (count : Nat) (code : Nat → Byte) (pos : Nat)

/-- A narrow character writes one byte in each of fourteen rows. -/
theorem mem_fill_english (write : Nat × Byte) :
    write ∈ FillCode count code pos FONTSIZE true ↔
      ∃ row < 14, write = ((row + 2) * count + pos, code row) := by
  have offset : pos * 16 / 8 / 2 = pos := by omega
  have stride : count * 16 / 8 / 2 = count := by omega
  simp only [FillCode, FONTSIZE, if_true, offset, stride, List.mem_flatMap, List.mem_range, List.mem_map]
  constructor
  · rintro ⟨row, rows, col, columns, rfl⟩
    obtain rfl : col = 0 := by omega
    refine ⟨row, rows, ?_⟩
    simp [Nat.add_comm]
  · rintro ⟨row, rows, rfl⟩
    refine ⟨row, rows, 0, by omega, ?_⟩
    simp [Nat.add_comm]

/-- A wide character writes two bytes in each of sixteen rows. -/
theorem mem_fill_chinese (write : Nat × Byte) :
    write ∈ FillCode count code pos FONTSIZE false ↔
      ∃ row < 16, ∃ col < 2, write = (row * count + (pos + col), code (2 * row + col)) := by
  have offset : pos * 16 / 8 / 2 = pos := by omega
  have stride : count * 16 / 8 / 2 = count := by omega
  simp only [FillCode, FONTSIZE, Bool.false_eq_true, if_false, offset, stride, List.mem_flatMap,
    List.mem_range, List.mem_map, Nat.sub_zero, Nat.add_zero]
  constructor
  · rintro ⟨row, rows, col, columns, rfl⟩
    exact ⟨row, rows, col, by omega, by rw [Nat.add_comm (row * count), Nat.add_comm (2 * row), Nat.mul_comm 2]⟩
  · rintro ⟨row, rows, col, columns, rfl⟩
    exact ⟨row, rows, col, by omega, by rw [Nat.add_comm (row * count), Nat.add_comm (2 * row), Nat.mul_comm 2]⟩

end Filling

/-- Cells of rows of `count` bytes are told apart by their row and their column. -/
theorem cell_apart (count row column row' column' : Nat) (inside : column < count)
    (inside' : column' < count) (same : row * count + column = row' * count + column') :
    row = row' ∧ column = column' := by
  have columns : column = column' := by
    have left := Nat.add_mul_mod_self_right column row count
    have right := Nat.add_mul_mod_self_right column' row' count
    rw [Nat.mod_eq_of_lt inside] at left
    rw [Nat.mod_eq_of_lt inside'] at right
    rw [← left, ← right, Nat.add_comm, same, Nat.add_comm]
  have rows : row * count = row' * count := by omega
  exact ⟨Nat.eq_of_mul_eq_mul_right (by omega) rows, columns⟩

/-- A cell of one of the rows is inside the text buffer. -/
theorem row_inside (count row column : Nat) (rows : row < FONTSIZE) (columns : column < count) :
    row * count + column < FONTSIZE * count := by
  have above : (row + 1) * count ≤ FONTSIZE * count := Nat.mul_le_mul_right count rows
  rw [Nat.add_mul, Nat.one_mul] at above
  omega

section Cells
variable (memory : Nat → Byte) (count : Nat) (code : Nat → Byte) (pos row column : Nat)
  (inside : column < count)

include inside

/-- A narrow character writes nothing outside its column. -/
theorem english_elsewhere (here : pos < count) (other : column ≠ pos) :
    Writes.store memory (FillCode count code pos FONTSIZE true) (row * count + column) =
      memory (row * count + column) := by
  apply Writes.store_outside
  intro write member same
  obtain ⟨line, -, rfl⟩ := (mem_fill_english count code pos write).mp member
  exact other (cell_apart count _ _ _ _ here inside same).2.symm

/-- A bitmap of a single byte fills its column from the third row on. -/
theorem english_column (here : column = pos) (blank : memory (row * count + column) = 0) (last : row < 16) :
    Writes.store memory (FillCode count code pos FONTSIZE true) (row * count + column) =
      if row < 2 then 0 else code (row - 2) := by
  subst here
  by_cases sunk : row < 2
  · rw [if_pos sunk, ← blank]
    apply Writes.store_outside
    intro write member same
    obtain ⟨line, -, rfl⟩ := (mem_fill_english count code column write).mp member
    obtain ⟨rows, -⟩ := cell_apart count _ _ _ _ inside inside same
    omega
  · rw [if_neg sunk]
    apply Writes.store_inside
    · refine ⟨_, (mem_fill_english count code column _).mpr ⟨row - 2, by omega, rfl⟩, ?_⟩
      have lines : row - 2 + 2 = row := by omega
      simp only [lines]
    · intro write member same
      obtain ⟨line, -, rfl⟩ := (mem_fill_english count code column write).mp member
      obtain ⟨rows, -⟩ := cell_apart count _ _ _ _ inside inside same
      have lines : line = row - 2 := by omega
      rw [lines]

/-- A wide character writes nothing outside its two columns. -/
theorem chinese_elsewhere (here : pos + 1 < count) (other : column < pos ∨ pos + 2 ≤ column) :
    Writes.store memory (FillCode count code pos FONTSIZE false) (row * count + column) =
      memory (row * count + column) := by
  apply Writes.store_outside
  intro write member same
  obtain ⟨line, -, col, half, rfl⟩ := (mem_fill_chinese count code pos write).mp member
  have columns := (cell_apart count _ _ _ _ (by omega) inside same).2
  omega

/-- A bitmap of a pair fills both its columns in every row. -/
theorem chinese_column (col : Nat) (half : col < 2) (here : column = pos + col) (pair : pos + 1 < count)
    (last : row < 16) :
    Writes.store memory (FillCode count code pos FONTSIZE false) (row * count + column) =
      code (2 * row + col) := by
  subst here
  apply Writes.store_inside
  · exact ⟨_, (mem_fill_chinese count code pos _).mpr ⟨row, last, col, half, rfl⟩, rfl⟩
  · intro write member same
    obtain ⟨line, -, side, within, rfl⟩ := (mem_fill_chinese count code pos write).mp member
    obtain ⟨rows, columns⟩ := cell_apart count _ _ _ _ (by omega) inside same
    have sides : side = col := by omega
    rw [rows, sides]

end Cells

/-- The passes over characters from an index on. -/
def characterPasses (fonts : Fonts) (count : Nat) : Nat → List Character → List Pass
  | _, [] => []
  | index, .single code _ :: rest =>
    ⟨index, 1, [index], FillCode count (fonts.asc code) index FONTSIZE true⟩ ::
      characterPasses fonts count (index + 1) rest
  | index, .pair lead trail _ :: rest =>
    ⟨index, 2, [index, index, index + 1], FillCode count (fonts.hzk lead trail) index FONTSIZE false⟩ ::
      characterPasses fonts count (index + 2) rest

/-- Behind the bytes that were scanned, the byte at the index is the first of the rest. -/
theorem get_behind (szText : CString) (before : List Byte) (byte : Byte) (rest : List Byte)
    (text : szText.bytes = before ++ byte :: rest) : szText.get before.length = byte := by
  rw [CString.get, text]
  simp

/-- The loop takes complete characters one by one and ends at the end of the string. -/
theorem scan_characters (fonts : Fonts) (szText : CString) (characters : List Character)
    (before : List Byte) (text : szText.bytes = before ++ spelled characters) (passes : Nat)
    (enough : characters.length ≤ passes) :
    scan fonts szText passes before.length =
      some (characterPasses fonts szText.strlen before.length characters, szText.strlen) := by
  induction characters generalizing before passes with
  | nil =>
    have ended : before.length = szText.strlen := by
      rw [CString.strlen, text]
      simp [spelled]
    cases passes <;>
      rw [scan, if_neg (by omega), characterPasses, ended]
  | cons character rest inductionHypothesis =>
    obtain ⟨fewer, rfl⟩ : ∃ fewer, passes = fewer + 1 :=
      ⟨passes - 1, by simp only [List.length_cons] at enough; omega⟩
    have fuel : rest.length ≤ fewer := by simpa using enough
    cases character with
    | single code ascii =>
      have first : szText.bytes = before ++ code :: spelled rest := text
      have here := get_behind szText before code _ first
      have following := inductionHypothesis (before ++ [code]) (by rw [first]; simp) fewer fuel
      rw [List.length_append, List.length_singleton] at following
      have more : before.length < szText.strlen := by
        rw [CString.strlen, first]
        simp
      rw [scan, if_pos more, here, if_pos ascii, following]
      rfl
    | pair lead trail high =>
      have first : szText.bytes = before ++ lead :: trail :: spelled rest := text
      have here := get_behind szText before lead _ first
      have next := get_behind szText (before ++ [lead]) trail (spelled rest) (by rw [first]; simp)
      have following := inductionHypothesis (before ++ [lead, trail]) (by rw [first]; simp) fewer fuel
      rw [List.length_append, List.length_singleton] at next
      have more : before.length < szText.strlen := by
        rw [CString.strlen, first]
        simp
      rw [scan, if_pos more, here, if_neg (by omega), next]
      have ended : before.length + 2 = (before ++ [lead, trail]).length := by simp
      rw [ended, following, ← ended]
      rfl

/-- The writes of the passes leave the columns before them alone, and fill theirs with the
bitmaps. -/
theorem passes_glyphs (fonts : Fonts) (count : Nat) (characters : List Character) (index : Nat)
    (ends : index + (spelled characters).length = count) (memory : Nat → Byte) (row column : Nat)
    (inside : column < count) (last : row < 16) :
    (column < index →
      Writes.store memory ((characterPasses fonts count index characters).flatMap Pass.writes)
        (row * count + column) = memory (row * count + column)) ∧
    (index ≤ column → memory (row * count + column) = 0 →
      Writes.store memory ((characterPasses fonts count index characters).flatMap Pass.writes)
        (row * count + column) = glyphByte fonts characters (column - index) row) := by
  induction characters generalizing index memory with
  | nil =>
    refine ⟨fun _ => rfl, fun behind blank => ?_⟩
    rw [characterPasses, List.flatMap_nil, Writes.store_nil, blank]
    rfl
  | cons character rest inductionHypothesis =>
    cases character with
    | single code ascii =>
      have length : index + 1 + (spelled rest).length = count := spelled_behind ends
      rw [characterPasses, List.flatMap_cons, Writes.store_append]
      set filled := Writes.store memory (FillCode count (fonts.asc code) index FONTSIZE true)
      obtain ⟨before, behind⟩ := inductionHypothesis (index + 1) length filled
      constructor
      · intro earlier
        rw [before (by omega)]
        exact english_elsewhere memory count _ index row column inside (by omega) (by omega)
      · intro later blank
        by_cases here : column = index
        · rw [before (by omega), here, Nat.sub_self, glyphByte, ← here]
          exact english_column memory count _ index row column inside here blank last
        · have kept := english_elsewhere memory count (fonts.asc code) index row column inside
            (by omega) here
          have shifted : column - index = column - (index + 1) + 1 := by omega
          rw [behind (by omega) (kept.trans blank), shifted, glyphByte]
    | pair lead trail high =>
      have length : index + 2 + (spelled rest).length = count := spelled_behind ends
      rw [characterPasses, List.flatMap_cons, Writes.store_append]
      set filled := Writes.store memory (FillCode count (fonts.hzk lead trail) index FONTSIZE false)
      obtain ⟨before, behind⟩ := inductionHypothesis (index + 2) length filled
      constructor
      · intro earlier
        rw [before (by omega)]
        exact chinese_elsewhere memory count _ index row column inside (by omega) (by omega)
      · intro later blank
        by_cases here : column < index + 2
        · rw [before here]
          have half := chinese_column memory count (fonts.hzk lead trail) index row column inside
            (column - index) (by omega) (by omega) (by omega) last
          obtain first | second : column - index = 0 ∨ column - index = 1 := by omega
          · rw [first] at half ⊢
            exact half
          · rw [second] at half ⊢
            exact half
        · have kept := chinese_elsewhere memory count (fonts.hzk lead trail) index row column inside
            (by omega) (by omega)
          have shifted : column - index = column - (index + 2) + 2 := by omega
          rw [behind (by omega) (kept.trans blank), shifted, glyphByte]

/-- The mask of the expansion selects the bits of a byte from the highest on. -/
theorem mask_selects (byte : Byte) (k : Nat) (inside : k < 8) :
    decide (promote byte &&& (0x80 : Word) >>> k ≠ 0) = byte.getLsbD (7 - k) := by
  have powers : ∀ k < 8, ((0x80 : Word) >>> k).toNat = 2 ^ (7 - k) := by decide
  have value : (promote byte &&& (0x80 : Word) >>> k).toNat =
      (byte.toNat.testBit (7 - k)).toNat * 2 ^ (7 - k) := by
    rw [mask_value, powers k inside, Nat.and_two_pow]
  rw [← BitVec.testBit_toNat, Bool.eq_iff_iff, decide_eq_true_eq, ne_eq, ← BitVec.toNat_inj, value]
  cases byte.toNat.testBit (7 - k) with
  | false => simp
  | true => simp

section Expansion
variable (pRGB8888 pTextBuffer : Nat → Byte) (width height : Nat)

/-- Each bit of the text is written as the four bytes of its colour. -/
theorem mem_trans_code (write : Nat × Byte) :
    write ∈ TransCode2RGB8888 pTextBuffer width height ↔
      ∃ row < height, ∃ col < width, ∃ k < 8, ∃ byte < 4,
        write = ((row * width + col) * 32 + k * 4 + byte,
          (rgb8888 ((pTextBuffer (row * width + col)).getLsbD (7 - k))).getD byte 0) := by
  have place : ∀ row col k byte, row * width * 8 * 4 + col * 8 * 4 + k * 4 + byte =
      (row * width + col) * 32 + k * 4 + byte := by
    intro row col k byte
    omega
  simp only [TransCode2RGB8888, List.mem_flatMap, List.mem_range, List.mem_map, place]
  constructor
  · rintro ⟨row, rows, col, columns, k, bit, byte, part, rfl⟩
    exact ⟨row, rows, col, columns, k, bit, byte, part, by rw [mask_selects _ k bit]⟩
  · rintro ⟨row, rows, col, columns, k, bit, byte, part, rfl⟩
    exact ⟨row, rows, col, columns, k, bit, byte, part, by rw [mask_selects _ k bit]⟩

/-- Each bit of the text buffer becomes a pixel. -/
theorem trans_code_pixel (row col k byte : Nat) (rows : row < height) (columns : col < width)
    (bit : k < 8) (part : byte < 4) :
    Writes.store pRGB8888 (TransCode2RGB8888 pTextBuffer width height)
        ((row * width + col) * 32 + k * 4 + byte) =
      (rgb8888 ((pTextBuffer (row * width + col)).getLsbD (7 - k))).getD byte 0 := by
  apply Writes.store_inside
  · exact ⟨_, (mem_trans_code pTextBuffer width height _).mpr
      ⟨row, rows, col, columns, k, bit, byte, part, rfl⟩, rfl⟩
  · intro write member same
    obtain ⟨row', -, col', -, k', bit', byte', part', rfl⟩ :=
      (mem_trans_code pTextBuffer width height write).mp member
    simp only at same ⊢
    have cells : row' * width + col' = row * width + col := by omega
    have bits : k' = k := by omega
    have bytes : byte' = byte := by omega
    rw [cells, bits, bytes]

end Expansion

/-- The four bytes of a pixel of an image of `count` bytes a row. -/
def pixel (pRGB8888 : Nat → Byte) (count row column : Nat) : List Byte :=
  Buffers.slice pRGB8888 ((row * (8 * count) + column) * 4) 4

/-- The bit of the bitmap that covers a pixel. -/
def glyphBit (fonts : Fonts) (characters : List Character) (row column : Nat) : Bool :=
  (glyphByte fonts characters (column / 8) row).getLsbD (7 - column % 8)

/-- A character has a byte at least. -/
theorem spelled_length (characters : List Character) : characters.length ≤ (spelled characters).length := by
  induction characters with
  | nil => exact Nat.le_refl 0
  | cons character rest inductionHypothesis =>
    rw [spelled_cons_length, List.length_cons]
    cases character <;> simp only [Character.bytes, List.length_cons, List.length_nil] <;> omega

/-- Text of single bytes and complete pairs, in any mix, is rendered glyph by glyph: a
pixel is black where the bit of the glyph that covers it is set, and white elsewhere. -/
theorem text_rendered (fonts : Fonts) (szText : CString) (characters : List Character)
    (text : szText.bytes = spelled characters) (pTextBuffer pRGB8888 : Nat → Byte) :
    ∃ textAfter rgbAfter,
      GenTextBuffer fonts szText pTextBuffer pRGB8888 = some (textAfter, rgbAfter) ∧
      ∀ row < FONTSIZE, ∀ column < 8 * szText.strlen,
        pixel rgbAfter szText.strlen row column = rgb8888 (glyphBit fonts characters row column) := by
  have count : szText.strlen = (spelled characters).length := congrArg List.length text
  have enough := spelled_length characters
  have loop : textLoop fonts szText =
      some (characterPasses fonts szText.strlen 0 characters, szText.strlen) :=
    scan_characters fonts szText characters [] text szText.strlen (by omega)
  refine ⟨_, _, by rw [GenTextBuffer, loop]; rfl, ?_⟩
  intro row rows column columns
  have cell : column / 8 < szText.strlen := by omega
  have blank : row * szText.strlen + column / 8 < FONTSIZE * FONTSIZE / 2 / 8 * szText.strlen :=
    row_inside szText.strlen row (column / 8) rows cell
  have glyph := (passes_glyphs fonts szText.strlen characters 0 (by omega)
    (fun place => if place < FONTSIZE * FONTSIZE / 2 / 8 * szText.strlen then 0 else pTextBuffer place)
    row (column / 8) cell rows).2 (Nat.zero_le _) (if_pos blank)
  have place : (row * (8 * szText.strlen) + column) * 4 =
      (row * szText.strlen + column / 8) * 32 + column % 8 * 4 := by
    rw [Nat.mul_left_comm]
    omega
  have list : rgb8888 (glyphBit fonts characters row column) =
      Buffers.slice (fun byte => (rgb8888 (glyphBit fonts characters row column)).getD byte 0) 0 4 := by
    cases glyphBit fonts characters row column <;> rfl
  rw [pixel, list]
  apply Buffers.slice_congr
  intro byte part
  rw [place, trans_code_pixel _ _ _ _ row (column / 8) (column % 8) byte rows cell (by omega) part,
    glyph, Nat.zero_add]
  rfl

/-- Fonts whose bitmaps are full of one byte. -/
def fullFonts : Fonts := ⟨fun code _ => code, fun lead _ _ => lead⟩

/-- A text of a single byte and a pair. -/
def mixedText : CString := ⟨[0x41, 0xB0, 0xA1], by decide⟩

/-- A letter and a Chinese character behind it are rendered side by side. -/
theorem text_rendered_mixed :
    mixedText.bytes = spelled [.single 0x41 (by decide), .pair 0xB0 0xA1 (by decide)] ∧
      ∃ textAfter rgbAfter,
        GenTextBuffer fullFonts mixedText (fun _ => 7) (fun _ => 7) = some (textAfter, rgbAfter) ∧
        ∀ row < FONTSIZE, ∀ column < 8 * mixedText.strlen,
          pixel rgbAfter mixedText.strlen row column = rgb8888 (glyphBit fullFonts
            [.single 0x41 (by decide), .pair 0xB0 0xA1 (by decide)] row column) :=
  ⟨rfl, text_rendered fullFonts mixedText
    [.single 0x41 (by decide), .pair 0xB0 0xA1 (by decide)] rfl (fun _ => 7) (fun _ => 7)⟩

/-- A pass reads inside the string with its terminator, and writes inside the text buffer
and the columns of the bytes that it takes. -/
def Pass.Inside (count : Nat) (pass : Pass) : Prop :=
  (∀ read ∈ pass.reads, read ≤ count) ∧
    ∀ write ∈ pass.writes, write.1 < FONTSIZE * count ∧
      ∃ row < FONTSIZE, ∃ column, pass.index ≤ column ∧ column < pass.index + pass.taken ∧
        column < count ∧ write.1 = row * count + column

/-- Every pass stays inside, and the loop ends at the end of the string. -/
def StaysInside (fonts : Fonts) (szText : CString) : Prop :=
  ∃ passes, textLoop fonts szText = some (passes, szText.strlen) ∧
    ∀ pass ∈ passes, pass.Inside szText.strlen

/-- A narrow character that begins inside a text stays inside. -/
theorem english_inside (count : Nat) (code : Nat → Byte) (index : Nat) (here : index < count) :
    Pass.Inside count ⟨index, 1, [index], FillCode count code index FONTSIZE true⟩ := by
  refine ⟨by simp; omega, fun write member => ?_⟩
  obtain ⟨row, rows, rfl⟩ := (mem_fill_english count code index write).mp member
  have sunk : row + 2 < FONTSIZE := by rw [FONTSIZE]; omega
  exact ⟨row_inside count _ _ sunk here, row + 2, sunk, index, Nat.le_refl index, by simp, here, rfl⟩

/-- So does a wide one that has both of its bytes. -/
theorem chinese_inside (count : Nat) (code : Nat → Byte) (index : Nat) (here : index + 1 < count) :
    Pass.Inside count
      ⟨index, 2, [index, index, index + 1], FillCode count code index FONTSIZE false⟩ := by
  refine ⟨by simp; omega, fun write member => ?_⟩
  obtain ⟨row, rows, col, columns, rfl⟩ := (mem_fill_chinese count code index write).mp member
  exact ⟨row_inside count _ _ rows (by omega), row, rows, index + col, by simp, by simp; omega,
    by omega, rfl⟩

/-- The passes over complete characters stay inside. -/
theorem character_passes_inside (fonts : Fonts) (count : Nat) (characters : List Character) (index : Nat)
    (ends : index + (spelled characters).length = count) :
    ∀ pass ∈ characterPasses fonts count index characters, pass.Inside count := by
  induction characters generalizing index with
  | nil => simp [characterPasses]
  | cons character rest inductionHypothesis =>
    cases character with
    | single code ascii =>
      have length : index + 1 + (spelled rest).length = count := spelled_behind ends
      rw [characterPasses, List.forall_mem_cons]
      exact ⟨english_inside count _ index (by omega), inductionHypothesis (index + 1) length⟩
    | pair lead trail high =>
      have length : index + 2 + (spelled rest).length = count := spelled_behind ends
      rw [characterPasses, List.forall_mem_cons]
      exact ⟨chinese_inside count _ index (by omega), inductionHypothesis (index + 2) length⟩

section Ending
variable (fonts : Fonts) (szText : CString)

/-- The loop does not go back. -/
theorem scan_advances (passes index : Nat) (result : List Pass × Nat)
    (ended : scan fonts szText passes index = some result) : index ≤ result.2 := by
  induction passes generalizing index result with
  | zero =>
    by_cases more : index < szText.strlen
    · rw [scan, if_pos more] at ended
      cases ended
    · rw [scan, if_neg more] at ended
      obtain rfl := Option.some.inj ended
      exact Nat.le_refl index
  | succ passes inductionHypothesis =>
    by_cases more : index < szText.strlen
    · by_cases ascii : (szText.get index).toNat < 128
      · rw [scan, if_pos more, if_pos ascii] at ended
        obtain ⟨rest, following, rfl⟩ := Option.map_eq_some_iff.mp ended
        have later := inductionHypothesis (index + 1) rest following
        exact Nat.le_of_succ_le later
      · rw [scan, if_pos more, if_neg ascii] at ended
        obtain ⟨rest, following, rfl⟩ := Option.map_eq_some_iff.mp ended
        have later := inductionHypothesis (index + 2) rest following
        exact Nat.le_of_succ_le (Nat.le_of_succ_le later)
    · rw [scan, if_neg more] at ended
      obtain rfl := Option.some.inj ended
      exact Nat.le_refl index

/-- A loop that ends at the end of the string has taken complete characters. -/
theorem scan_complete (passes index : Nat) (list : List Pass) (inside : index ≤ szText.strlen)
    (ended : scan fonts szText passes index = some (list, szText.strlen)) :
    ∃ characters, szText.bytes.drop index = spelled characters := by
  induction passes generalizing index list with
  | zero =>
    by_cases more : index < szText.strlen
    · rw [scan, if_pos more] at ended
      cases ended
    · exact ⟨[], List.drop_eq_nil_of_le (Nat.le_of_not_lt more)⟩
  | succ passes inductionHypothesis =>
    by_cases more : index < szText.strlen
    · have here : szText.bytes.drop index = szText.get index :: szText.bytes.drop (index + 1) := by
        rw [List.drop_eq_getElem_cons more, CString.get, List.getD_eq_getElem _ _ more]
      by_cases ascii : (szText.get index).toNat < 128
      · rw [scan, if_pos more, if_pos ascii] at ended
        obtain ⟨rest, following, same⟩ := Option.map_eq_some_iff.mp ended
        have last : rest.2 = szText.strlen := congrArg Prod.snd same
        obtain ⟨characters, behind⟩ := inductionHypothesis (index + 1) rest.1 more (by rw [following, ← last])
        exact ⟨.single _ ascii :: characters, by rw [here, behind]; rfl⟩
      · rw [scan, if_pos more, if_neg ascii] at ended
        obtain ⟨rest, following, same⟩ := Option.map_eq_some_iff.mp ended
        have last : rest.2 = szText.strlen := congrArg Prod.snd same
        have later := scan_advances fonts szText passes (index + 2) rest following
        have second : index + 1 < szText.strlen := by omega
        have next : szText.bytes.drop (index + 1) =
            szText.get (index + 1) :: szText.bytes.drop (index + 2) := by
          rw [List.drop_eq_getElem_cons second, CString.get, List.getD_eq_getElem _ _ second]
        obtain ⟨characters, behind⟩ :=
          inductionHypothesis (index + 2) rest.1 second (by rw [following, ← last])
        exact ⟨.pair _ _ (Nat.le_of_not_lt ascii) :: characters, by rw [here, next, behind]; rfl⟩
    · exact ⟨[], List.drop_eq_nil_of_le (Nat.le_of_not_lt more)⟩

/-- Rendering stays inside its buffer exactly when the string is made of single bytes and
complete pairs. -/
theorem text_stays_inside_iff :
    StaysInside fonts szText ↔ ∃ characters, szText.bytes = spelled characters := by
  constructor
  · rintro ⟨passes, ended, -⟩
    exact scan_complete fonts szText szText.strlen 0 passes (Nat.zero_le _) ended
  · rintro ⟨characters, text⟩
    have count : szText.strlen = (spelled characters).length := congrArg List.length text
    have enough := spelled_length characters
    exact ⟨_, scan_characters fonts szText characters [] text szText.strlen (by omega),
      character_passes_inside fonts szText.strlen characters 0 (by omega)⟩

end Ending

/-- A text that ends in an unpaired lead byte. -/
def unpairedText : CString := ⟨[0x41, 0xB0], by decide⟩

/-- The last bitmap is written into the first column of the next rows, and behind the 32
bytes of the text buffer; the loop ends behind the terminator. -/
theorem unpaired_byte_leaves_buffer :
    ∃ passes, textLoop fullFonts unpairedText = some (passes, unpairedText.strlen + 1) ∧
      (FONTSIZE * unpairedText.strlen, 0xB0) ∈ passes.flatMap Pass.writes :=
  ⟨_, rfl, by decide⟩

end IotCamera.Nna
