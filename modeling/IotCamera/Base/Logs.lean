import Mathlib.Data.List.Basic

/-!
# Logs

A log is a list that only grows at its end. A rule says which entry may follow a
log; a log obeys the rule when each of its entries may follow the entries before
it. That is settled entry by entry as the log grows.
-/

namespace Logs

universe u
variable {α : Type u}

/-- Each entry may follow the entries before it. -/
def Each (rule : List α → α → Prop) (log : List α) : Prop :=
  ∀ before entry after, log = before ++ entry :: after → rule before entry

/-- Nothing breaks a rule in an empty log. -/
theorem each_nil (rule : List α → α → Prop) : Each rule [] := by
  intro before entry after shape
  have longer := congrArg List.length shape
  simp at longer

/-- One more entry. -/
theorem each_snoc (rule : List α → α → Prop) (log : List α) (entry : α) (each : Each rule log)
    (allowed : rule log entry) : Each rule (log ++ [entry]) := by
  intro before other after shape
  rcases List.eq_nil_or_concat after with none | ⟨middle, last, rfl⟩
  · subst none
    obtain ⟨rfl, same⟩ := List.append_inj' shape rfl
    obtain rfl : entry = other := by simpa using same
    exact allowed
  · rw [List.concat_eq_append, ← List.cons_append, ← List.append_assoc] at shape
    exact each before other middle (List.append_inj' shape rfl).1

end Logs
