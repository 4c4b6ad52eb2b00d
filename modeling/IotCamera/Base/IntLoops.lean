import Mathlib.Algebra.Group.Int.Defs

/-!
# Loops that count in an `int`

The value of an expression of type `int` is an integer of 32 bits with a sign. An expression
whose value does not fit is undefined, and so is everything that needs its value. A loop that
counts up to and with a last value computes one more than that value, unless it does not begin.
-/

namespace IntLoops

/-- The value fits an `int`. -/
def IsInt (value : Int) : Prop := -2 ^ 31 ≤ value ∧ value < 2 ^ 31

instance (value : Int) : Decidable (IsInt value) := inferInstanceAs (Decidable (_ ∧ _))

/-- An expression of type `int` with the given value. -/
def int (value : Int) : Option Int := if IsInt value then some value else none

/-- The expression is defined exactly when its value fits. -/
theorem int_eq_some_iff (value result : Int) : int value = some result ↔ IsInt value ∧ value = result := by
  unfold int
  split
  · simp [*]
  · simp [*]

variable {α : Type}

/-- The passes of the loop from `i` on. The first argument is the number of passes allowed. -/
def passesUpTo (last : Int) (body : Int → Option (List α)) : Nat → Int → Option (List α)
  | 0, _ => some []
  | passes + 1, i =>
    if i ≤ last then do
      let here ← body i
      let next ← int (i + 1)
      let rest ← passesUpTo last body passes next
      some (here ++ rest)
    else some []

/-- `for (i = first; i <= last; i++)`, and what its passes give one after the other. -/
def forUpTo (first last : Int) (body : Int → Option (List α)) : Option (List α) :=
  passesUpTo last body (last + 1 - first).toNat first

section Rule
variable (last : Int) (body : Int → Option (List α)) (property : α → Prop)

/-- A pass is followed by the others, if the counter can be advanced. -/
theorem passes_up_to_step (passes : Nat) (i : Int) (here : i ≤ last) (least : -2 ^ 31 ≤ i) :
    (∃ result, passesUpTo last body (passes + 1) i = some result ∧ ∀ value ∈ result, property value) ↔
      i + 1 < 2 ^ 31 ∧ (∃ part, body i = some part ∧ ∀ value ∈ part, property value) ∧
        ∃ rest, passesUpTo last body passes (i + 1) = some rest ∧ ∀ value ∈ rest, property value := by
  have fits : IsInt (i + 1) ↔ i + 1 < 2 ^ 31 := and_iff_right (by omega)
  simp only [passesUpTo, if_pos here, Option.bind_eq_bind, Option.bind_eq_some_iff, int_eq_some_iff,
    Option.some.injEq, fits]
  constructor
  · rintro ⟨result, ⟨part, made, -, ⟨room, rfl⟩, rest, others, rfl⟩, all⟩
    obtain ⟨first, second⟩ := List.forall_mem_append.mp all
    exact ⟨room, ⟨part, made, first⟩, rest, others, second⟩
  · rintro ⟨room, ⟨part, made, first⟩, rest, others, second⟩
    exact ⟨part ++ rest, ⟨part, made, _, ⟨room, rfl⟩, rest, others, rfl⟩,
      List.forall_mem_append.mpr ⟨first, second⟩⟩

/-- With enough passes the loop is defined and gives only values of a kind exactly when
every pass does, and the value that ends it fits. -/
theorem passes_up_to_iff (passes : Nat) (i : Int) (enough : (last + 1 - i).toNat = passes)
    (least : -2 ^ 31 ≤ i) :
    (∃ result, passesUpTo last body passes i = some result ∧ ∀ value ∈ result, property value) ↔
      (i ≤ last → last + 1 < 2 ^ 31) ∧
        ∀ j, i ≤ j → j ≤ last → ∃ part, body j = some part ∧ ∀ value ∈ part, property value := by
  induction passes generalizing i with
  | zero =>
    refine iff_of_true ⟨[], rfl, fun _ member => nomatch member⟩ ⟨?_, ?_⟩
    · intro begins
      omega
    · intro j from_ before
      omega
  | succ passes inductionHypothesis =>
    have here : i ≤ last := by omega
    rw [passes_up_to_step last body property passes i here least,
      inductionHypothesis (i + 1) (by omega) (by omega)]
    constructor
    · rintro ⟨room, first, ends, others⟩
      refine ⟨fun _ => ?_, ?_⟩
      · by_cases more : i + 1 ≤ last
        · exact ends more
        · omega
      · intro j least most
        by_cases same : i = j
        · exact same ▸ first
        · exact others j (by omega) most
    · rintro ⟨room, all⟩
      have bound := room here
      exact ⟨by omega, all i (Int.le_refl i) here, fun _ => bound,
        fun j least most => all j (by omega) most⟩

/-- The rule of the loop. -/
theorem for_up_to_iff (first : Int) (least : -2 ^ 31 ≤ first) :
    (∃ result, forUpTo first last body = some result ∧ ∀ value ∈ result, property value) ↔
      (first ≤ last → last + 1 < 2 ^ 31) ∧
        ∀ i, first ≤ i → i ≤ last → ∃ part, body i = some part ∧ ∀ value ∈ part, property value :=
  passes_up_to_iff last body property _ first rfl least

end Rule

end IntLoops
