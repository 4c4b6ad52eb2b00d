import Mathlib.Logic.Function.Basic
import Mathlib.Data.List.Induction

/-!
# Writes into a memory, one after the other

What a program with loops does to a memory is said in two parts: the list of the places
it writes, with the values, in order; and the memory after them. A property of the places
(that they lie inside an array) is then one of the list. The memory after the writes is
known where they agree: at a place that is written with one value, it is that value, and
at a place that is not written, it is as it was.
-/

namespace Writes

universe u v
variable {α : Type u} {β : Type v} [DecidableEq α]

/-- The memory after some writes. -/
def store (memory : α → β) (writes : List (α × β)) : α → β :=
  writes.foldl (fun memory write => Function.update memory write.1 write.2) memory

/-- No writes change nothing. -/
@[simp] theorem store_nil (memory : α → β) : store memory [] = memory := rfl

/-- Writes in two parts are made one after the other. -/
theorem store_append (memory : α → β) (first second : List (α × β)) :
    store memory (first ++ second) = store (store memory first) second :=
  List.foldl_append

/-- The last write decides what stands at its place. -/
theorem store_snoc (memory : α → β) (earlier : List (α × β)) (write : α × β) :
    store memory (earlier ++ [write]) = Function.update (store memory earlier) write.1 write.2 :=
  store_append memory earlier [write]

/-- A place that is not written is as it was. -/
theorem store_outside (memory : α → β) (writes : List (α × β)) (place : α)
    (outside : ∀ write ∈ writes, write.1 ≠ place) : store memory writes place = memory place := by
  induction writes using List.reverseRecOn with
  | nil => rfl
  | append_singleton earlier write inductionHypothesis =>
    rw [store_snoc, Function.update_of_ne (outside write (by simp)).symm]
    exact inductionHypothesis fun other member => outside other (List.mem_append_left [write] member)

/-- A place that is written, always with one value, has that value. -/
theorem store_inside (memory : α → β) (writes : List (α × β)) (place : α) (value : β)
    (written : ∃ write ∈ writes, write.1 = place)
    (agree : ∀ write ∈ writes, write.1 = place → write.2 = value) :
    store memory writes place = value := by
  induction writes using List.reverseRecOn with
  | nil =>
    obtain ⟨write, member, -⟩ := written
    cases member
  | append_singleton earlier write inductionHypothesis =>
    rw [store_snoc]
    by_cases last : write.1 = place
    · rw [← last, Function.update_self]
      exact agree write (by simp) last
    · rw [Function.update_of_ne (Ne.symm last)]
      apply inductionHypothesis
      · obtain ⟨other, member, here⟩ := written
        rcases List.mem_append.mp member with before | only
        · exact ⟨other, before, here⟩
        · obtain rfl := List.mem_singleton.mp only
          exact absurd here last
      · exact fun other member => agree other (List.mem_append_left [write] member)

end Writes
