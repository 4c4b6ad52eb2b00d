import Mathlib.Data.List.Basic

/-!
# Writes into a fixed buffer and reads from an indexed one

A staging buffer is a list whose length is its capacity. Overwriting replaces
the cells from one position on; a write past the end lengthens the list, so a
buffer that keeps its length was never written outside its bounds. A buffer
filled from front to back is at every moment a finished part followed by cells
not yet written, and `overwrite_next` advances that boundary.

A source array is a function on positions, read through `slice`. Nothing here
depends on what the cells hold.
-/

namespace Buffers

universe u
variable {α : Type u}

/-- Replace the cells from `position` on by the supplied values. -/
def overwrite (buffer : List α) (position : Nat) (values : List α) : List α :=
  buffer.take position ++ values ++ buffer.drop (position + values.length)

/-- The `count` cells of an indexed array from `start` on. -/
def slice (cells : Nat → α) (start count : Nat) : List α :=
  (List.range' start count).map cells

/-- A write at the boundary between the finished part and a uniform rest moves
the boundary behind the written values. -/
theorem overwrite_next (finished values : List α) (rest : α) (position room left : Nat)
    (here : finished.length = position) (fits : room = values.length + left) :
    overwrite (finished ++ List.replicate room rest) position values =
      (finished ++ values) ++ List.replicate left rest := by
  subst here fits
  have behind : (finished ++ List.replicate (values.length + left) rest).drop
      (finished.length + values.length) = List.replicate left rest := by
    simp [List.drop_append]
  rw [overwrite, behind, List.take_left]

/-- The first write into a uniform buffer. -/
theorem overwrite_first (values : List α) (rest : α) (room left : Nat)
    (fits : room = values.length + left) :
    overwrite (List.replicate room rest) 0 values = values ++ List.replicate left rest := by
  simpa only [List.nil_append] using overwrite_next [] values rest 0 room left rfl fits

/-- A write over cells that already follow the finished part replaces exactly
those cells. -/
theorem overwrite_within (finished old values behind : List α) (position : Nat)
    (here : finished.length = position) (same : old.length = values.length) :
    overwrite (finished ++ old ++ behind) position values = finished ++ values ++ behind := by
  subst here
  have kept : (finished ++ old ++ behind).take finished.length = finished := by
    rw [List.append_assoc, List.take_left]
  have rest : (finished ++ old ++ behind).drop (finished.length + values.length) = behind := by
    rw [← same, ← List.length_append, List.drop_left]
  rw [overwrite, kept, rest]

/-- A slice has as many cells as it counts. -/
@[simp] theorem slice_length (cells : Nat → α) (start count : Nat) :
    (slice cells start count).length = count := by
  simp [slice]

/-- A slice of no cells is empty. -/
@[simp] theorem slice_zero (cells : Nat → α) (start : Nat) : slice cells start 0 = [] := rfl

/-- Consecutive reads join to one read. -/
theorem slice_append (cells : Nat → α) (start first second : Nat) :
    slice cells start first ++ slice cells (start + first) second =
      slice cells start (first + second) := by
  simp only [slice, ← List.map_append]
  rw [List.range'_append_1]

/-- Reads of the same cells agree. -/
theorem slice_congr (left right : Nat → α) (start other count : Nat)
    (same : ∀ index < count, left (start + index) = right (other + index)) :
    slice left start count = slice right other count := by
  apply List.ext_getElem (by simp)
  intro index bound _
  have inside : index < count := by simpa using bound
  simpa [slice] using same index inside

/-- A list read through its own positions is its part in that range. -/
theorem slice_getD (values : List α) (default : α) (start count : Nat)
    (inside : start + count ≤ values.length) :
    slice (fun index => values.getD index default) start count = (values.drop start).take count := by
  apply List.ext_getElem
  · simp
    omega
  intro index left right
  have bound : start + index < values.length := by
    simp at left
    omega
  simp [slice, bound]

end Buffers
