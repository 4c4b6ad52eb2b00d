import Mathlib.Data.List.Basic

/-!
# Threads in places

A table gives the place of each of finitely many threads, by number; a thread
beyond the table does not exist. A move replaces one entry. What an invariant
needs of a table is where a thread stands after a move and how many threads
stand in places of some kind, so the rules here are about looking up and about
counting after a move.
-/

namespace Places

universe u
variable {π : Type u}

/-- After a move a thread stands where it was moved to or where it stood before. -/
theorem moved_place (table : List π) (thread other : Nat) (next place : π)
    (stands : (table.set thread next)[other]? = some place) :
    other = thread ∧ place = next ∨ other ≠ thread ∧ table[other]? = some place := by
  by_cases same : other = thread
  · subst same
    have inside : other < table.length := by
      simpa using (List.getElem?_eq_some_iff.mp stands).1
    rw [List.getElem?_set_self inside] at stands
    exact Or.inl ⟨rfl, (Option.some.inj stands).symm⟩
  · rw [List.getElem?_set_ne (Ne.symm same)] at stands
    exact Or.inr ⟨same, stands⟩

/-- The moved thread stands where it was moved to. -/
theorem moved_self (table : List π) (thread : Nat) (place next : π)
    (here : table[thread]? = some place) : (table.set thread next)[thread]? = some next :=
  List.getElem?_set_self (List.getElem?_eq_some_iff.mp here).1

/-- A move takes one thread out of the count and puts one into it. -/
theorem count_moved (counts : π → Bool) (table : List π) (thread : Nat) (place next : π)
    (here : table[thread]? = some place) :
    (table.set thread next).countP counts + (counts place).toNat =
      table.countP counts + (counts next).toNat := by
  obtain ⟨inside, found⟩ := List.getElem?_eq_some_iff.mp here
  have counted : counts place = true → 0 < table.countP counts := by
    intro held
    exact List.countP_pos_iff.mpr ⟨place, List.mem_of_getElem? here, held⟩
  rw [List.countP_set inside, found]
  cases before : counts place <;> cases after : counts next <;>
    simp only [before, true_implies, Bool.toNat_true, Bool.toNat_false, ↓reduceIte,
      Bool.false_eq_true] at counted ⊢ <;> omega

/-- A place that some thread stands in after a move is its new place or was taken
before. -/
theorem moved_member (table : List π) (thread : Nat) (next place : π)
    (member : place ∈ table.set thread next) : place = next ∨ place ∈ table := by
  obtain ⟨other, stands⟩ := List.mem_iff_getElem?.mp member
  rcases moved_place table thread other next place stands with ⟨_, same⟩ | ⟨_, before⟩
  · exact Or.inl same
  · exact Or.inr (List.mem_of_getElem? before)

/-- Places that are of one kind or of another are counted by the two kinds. -/
theorem count_either (counts first second : π → Bool) (table : List π)
    (covers : ∀ place, counts place = true → first place = true ∨ second place = true) :
    table.countP counts ≤ table.countP first + table.countP second := by
  induction table with
  | nil => exact Nat.le_refl 0
  | cons place rest inductionHypothesis =>
    simp only [List.countP_cons]
    cases held : counts place with
    | false =>
      simp only [Bool.false_eq_true, ↓reduceIte]
      omega
    | true =>
      rcases covers place held with kind | kind <;> simp only [kind, ↓reduceIte] <;> omega

/-- A kind of place that at most one thread can stand in is counted at most once. -/
theorem count_unique (counts : π → Bool) (table : List π)
    (unique : ∀ (thread other : Nat) (place place' : π), table[thread]? = some place →
      table[other]? = some place' → counts place = true → counts place' = true →
      thread = other) : table.countP counts ≤ 1 := by
  induction table with
  | nil => exact Nat.zero_le 1
  | cons place rest inductionHypothesis =>
    rw [List.countP_cons]
    cases here : counts place with
    | false =>
      have fewer := inductionHypothesis fun thread other first second stands stands' held held' =>
        Nat.succ.inj (unique (thread + 1) (other + 1) first second stands stands' held held')
      simpa using fewer
    | true =>
      have none : rest.countP counts = 0 := by
        rw [List.countP_eq_zero]
        intro other member held
        obtain ⟨thread, stands⟩ := List.mem_iff_getElem?.mp member
        have zero := unique 0 (thread + 1) place other rfl stands here held
        omega
      simp [none]

end Places
