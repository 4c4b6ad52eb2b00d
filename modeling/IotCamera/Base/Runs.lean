import Mathlib.Data.List.Basic
import Mathlib.Data.List.Induction

/-!
# Runs of a step function that may stop

A step takes a state and an input to a next state, or stops with a reason and
the state in which it stopped. A run feeds a list of inputs; it ends at the
first stop. `last` is the state a run stands in, whether or not it stopped, so
effects before a stop are not lost.

Two rules carry step facts to runs: a reflexive and transitive relation kept by
every step relates the first and the last state of any run, and an invariant
kept by every step that meets a condition holds after every run whose steps all
meet it.
-/

namespace Runs

universe u v w
variable {σ : Type u} {α : Type v} {ε : Type w}

/-- The state in which an outcome leaves the system. -/
def last : Except (ε × σ) σ → σ
  | .ok state => state
  | .error stop => stop.2

/-- A run that returned stands in its result. -/
@[simp] theorem last_ok (state : σ) : last (.ok state : Except (ε × σ) σ) = state := rfl

/-- A run that stopped stands where it stopped. -/
@[simp] theorem last_error (reason : ε) (state : σ) :
    last (.error (reason, state) : Except (ε × σ) σ) = state := rfl

/-- The reason for which an outcome stopped, if it did. -/
def reason : Except (ε × σ) σ → Option ε
  | .ok _ => none
  | .error stop => some stop.1

/-- Feed the inputs in order until one of them stops the system. -/
def run (step : σ → α → Except (ε × σ) σ) : σ → List α → Except (ε × σ) σ
  | state, [] => .ok state
  | state, input :: rest =>
    match step state input with
    | .ok next => run step next rest
    | .error stop => .error stop

/-- Every step that is taken meets a condition on its input and the state before it. -/
def Meets (step : σ → α → Except (ε × σ) σ) (condition : σ → α → Prop) : σ → List α → Prop
  | _, [] => True
  | state, input :: rest => condition state input ∧
    match step state input with
    | .ok next => Meets step condition next rest
    | .error _ => True

/-- A condition that can be decided at each step can be decided along a run. -/
instance decidableMeets (step : σ → α → Except (ε × σ) σ) (condition : σ → α → Prop)
    [∀ state input, Decidable (condition state input)] :
    (state : σ) → (inputs : List α) → Decidable (Meets step condition state inputs)
  | _, [] => isTrue trivial
  | state, input :: rest =>
    have : Decidable (match step state input with
        | .ok next => Meets step condition next rest
        | .error _ => True) :=
      match step state input with
      | .ok next => decidableMeets step condition next rest
      | .error _ => isTrue trivial
    inferInstanceAs (Decidable (_ ∧ _))

section
variable {step : σ → α → Except (ε × σ) σ}

/-- An input that is taken is followed by the rest. -/
theorem run_ok (state next : σ) (input : α) (rest : List α) (taken : step state input = .ok next) :
    run step state (input :: rest) = run step next rest := by
  simp [run, taken]

/-- An input that stops the system ends the run. -/
theorem run_error (state : σ) (input : α) (rest : List α) (stop : ε × σ)
    (stopped : step state input = .error stop) :
    run step state (input :: rest) = .error stop := by
  simp [run, stopped]

/-- A run that has not stopped goes on from where it stands. -/
theorem run_append (state before : σ) (earlier later : List α)
    (reached : run step state earlier = .ok before) :
    run step state (earlier ++ later) = run step before later := by
  induction earlier generalizing state with
  | nil =>
    obtain rfl : state = before := Except.ok.inj reached
    rfl
  | cons first rest inductionHypothesis =>
    cases taken : step state first with
    | ok next =>
      rw [run_ok state next first rest taken] at reached
      rw [List.cons_append, run_ok state next first _ taken]
      exact inductionHypothesis next reached
    | error stop =>
      rw [run_error state first rest stop taken] at reached
      cases reached

/-- One more input continues a run that has not stopped. -/
theorem run_snoc (state before : σ) (earlier : List α) (input : α)
    (reached : run step state earlier = .ok before) :
    run step state (earlier ++ [input]) = step before input := by
  rw [run_append state before earlier [input] reached]
  simp only [run]
  cases step before input <;> rfl

/-- A run that stopped was stopped by one of its inputs. -/
theorem run_stop (state : σ) (inputs : List α) (stop : ε × σ)
    (stopped : run step state inputs = .error stop) :
    ∃ before, ∃ input ∈ inputs, step before input = .error stop := by
  induction inputs generalizing state with
  | nil => cases stopped
  | cons input rest inductionHypothesis =>
    cases taken : step state input with
    | ok next =>
      rw [run_ok state next input rest taken] at stopped
      obtain ⟨before, other, member, cause⟩ := inductionHypothesis next stopped
      exact ⟨before, other, List.mem_cons_of_mem input member, cause⟩
    | error reason =>
      rw [run_error state input rest reason taken] at stopped
      exact ⟨state, input, List.mem_cons_self, taken.trans stopped⟩

/-- A reflexive, transitive relation kept by each step is kept by each run. -/
theorem run_relation (relation : σ → σ → Prop) (reflexive : ∀ state, relation state state)
    (transitive : ∀ first second third,
      relation first second → relation second third → relation first third)
    (state : σ) (inputs : List α)
    (kept : ∀ before, ∀ input ∈ inputs, relation before (last (step before input))) :
    relation state (last (run step state inputs)) := by
  induction inputs generalizing state with
  | nil => exact reflexive state
  | cons input rest inductionHypothesis =>
    have first : relation state (last (step state input)) := kept state input List.mem_cons_self
    cases taken : step state input with
    | ok next =>
      rw [run_ok state next input rest taken]
      have following : relation next (last (run step next rest)) :=
        inductionHypothesis next fun before other member =>
          kept before other (List.mem_cons_of_mem input member)
      exact transitive state next _ (by simpa [taken] using first) following
    | error stop =>
      rw [run_error state input rest stop taken]
      simpa [taken] using first

/-- An invariant kept by every step that meets the condition holds after every
run whose steps all meet it. -/
theorem run_invariant (condition : σ → α → Prop) (invariant : σ → Prop)
    (kept : ∀ state input, invariant state → condition state input →
      invariant (last (step state input)))
    (state : σ) (inputs : List α) (initial : invariant state)
    (met : Meets step condition state inputs) : invariant (last (run step state inputs)) := by
  induction inputs generalizing state with
  | nil => exact initial
  | cons input rest inductionHypothesis =>
    obtain ⟨allowed, following⟩ := met
    have after : invariant (last (step state input)) := kept state input initial allowed
    cases taken : step state input with
    | ok next =>
      rw [run_ok state next input rest taken]
      exact inductionHypothesis next (by simpa [taken] using after) (by simpa [taken] using following)
    | error stop =>
      rw [run_error state input rest stop taken]
      simpa [taken] using after

/-- When every step that meets the condition returns and keeps the invariant, so
does every run whose steps all meet it. -/
theorem run_returns (condition : σ → α → Prop) (invariant : σ → Prop)
    (kept : ∀ state input, invariant state → condition state input →
      ∃ next, step state input = .ok next ∧ invariant next)
    (state : σ) (inputs : List α) (initial : invariant state)
    (met : Meets step condition state inputs) :
    ∃ after, run step state inputs = .ok after ∧ invariant after := by
  induction inputs generalizing state with
  | nil => exact ⟨state, rfl, initial⟩
  | cons input rest inductionHypothesis =>
    obtain ⟨allowed, following⟩ := met
    obtain ⟨next, taken, after⟩ := kept state input initial allowed
    rw [run_ok state next input rest taken]
    exact inductionHypothesis next after (by simpa [taken] using following)

/-- When every step that meets the condition returns and follows an abstract step, so
does every run whose steps all meet it. -/
theorem run_simulates {β : Type*} (condition : σ → α → Prop) (relation : σ → β → Prop)
    (abstract : β → α → β)
    (kept : ∀ state model input, relation state model → condition state input →
      ∃ next, step state input = .ok next ∧ relation next (abstract model input))
    (state : σ) (model : β) (inputs : List α) (initial : relation state model)
    (met : Meets step condition state inputs) :
    ∃ after, run step state inputs = .ok after ∧ relation after (inputs.foldl abstract model) := by
  induction inputs generalizing state model with
  | nil => exact ⟨state, rfl, initial⟩
  | cons input rest inductionHypothesis =>
    obtain ⟨allowed, following⟩ := met
    obtain ⟨next, taken, after⟩ := kept state model input initial allowed
    rw [run_ok state next input rest taken, List.foldl_cons]
    exact inductionHypothesis next _ after (by simpa [taken] using following)

/-- A run meets a condition when each of its inputs does, in the state that the
inputs before it lead to. -/
theorem meets_iff (condition : σ → α → Prop) (state : σ) (inputs : List α) :
    Meets step condition state inputs ↔
      ∀ earlier input, earlier ++ [input] <+: inputs →
        ∀ before, run step state earlier = .ok before → condition before input := by
  induction inputs generalizing state with
  | nil => simp [Meets]
  | cons first rest inductionHypothesis =>
    constructor
    · rintro ⟨allowed, following⟩ earlier input within before reached
      cases earlier with
      | nil =>
        obtain ⟨rfl, -⟩ := List.cons_prefix_cons.mp within
        cases reached
        exact allowed
      | cons other earlier =>
        obtain ⟨rfl, inside⟩ := List.cons_prefix_cons.mp within
        cases taken : step state other with
        | ok next =>
          rw [run_ok state next other earlier taken] at reached
          rw [taken] at following
          exact (inductionHypothesis next).mp following earlier input inside before reached
        | error stop =>
          rw [run_error state other earlier stop taken] at reached
          cases reached
    · intro each
      refine ⟨each [] first (List.cons_prefix_cons.mpr ⟨rfl, List.nil_prefix⟩) state rfl, ?_⟩
      cases taken : step state first with
      | error stop => trivial
      | ok next =>
        refine (inductionHypothesis next).mpr fun earlier input within before reached => ?_
        exact each (first :: earlier) input (List.cons_prefix_cons.mpr ⟨rfl, within⟩) before
          ((run_ok state next first earlier taken).trans reached)

/-- The beginning of a run that meets a condition meets it. -/
theorem meets_prefix (condition : σ → α → Prop) (state : σ) (earlier inputs : List α)
    (within : earlier <+: inputs) (met : Meets step condition state inputs) :
    Meets step condition state earlier :=
  (meets_iff condition state earlier).mpr fun before input inside =>
    (meets_iff condition state inputs).mp met before input (inside.trans within)

/-- When the condition says of a step exactly that it returns and keeps the
invariant, it says so of every step of a run. -/
theorem run_returns_iff (condition : σ → α → Prop) (invariant : σ → Prop)
    (exactly : ∀ state input, invariant state →
      ((∃ next, step state input = .ok next ∧ invariant next) ↔ condition state input))
    (state : σ) (inputs : List α) (initial : invariant state) :
    (∀ earlier, earlier <+: inputs → ∃ after, run step state earlier = .ok after ∧ invariant after) ↔
      Meets step condition state inputs := by
  constructor
  · intro returns
    refine (meets_iff condition state inputs).mpr fun earlier input within before reached => ?_
    obtain ⟨_, returned, holds⟩ := returns earlier ((List.prefix_append earlier _).trans within)
    obtain rfl := Except.ok.inj (returned.symm.trans reached)
    obtain ⟨after, taken, kept⟩ := returns (earlier ++ [input]) within
    rw [run_snoc state _ earlier input reached] at taken
    exact (exactly _ input holds).mp ⟨after, taken, kept⟩
  · intro met earlier within
    have first : Meets step condition state earlier :=
      meets_prefix condition state earlier inputs within met
    exact run_returns condition invariant
      (fun before input holds allowed => (exactly before input holds).mpr allowed) state earlier
      initial first

/-- When the state has no say in the condition and a step that meets it returns, a run
meets it when each of its inputs does. -/
theorem meets_inputs_iff (condition : σ → α → Prop) (sound : α → Prop)
    (exactly : ∀ state input, condition state input ↔ sound input)
    (returns : ∀ state input, sound input → ∃ next, step state input = .ok next)
    (state : σ) (inputs : List α) :
    Meets step condition state inputs ↔ ∀ input ∈ inputs, sound input := by
  induction inputs generalizing state with
  | nil => simp [Meets]
  | cons input rest inductionHypothesis =>
    rw [Meets, exactly, List.forall_mem_cons]
    refine and_congr_right fun holds => ?_
    obtain ⟨next, taken⟩ := returns state input holds
    rw [taken]
    exact inductionHypothesis next

/-- When every step returns and keeps the invariant, so does every run. -/
theorem run_always (invariant : σ → Prop)
    (kept : ∀ state input, invariant state → ∃ next, step state input = .ok next ∧ invariant next)
    (state : σ) (inputs : List α) (initial : invariant state) :
    ∃ after, run step state inputs = .ok after ∧ invariant after :=
  run_returns (fun _ _ => True) invariant (fun before input holds _ => kept before input holds)
    state inputs initial ((meets_iff _ state inputs).mpr fun _ _ _ _ _ => trivial)

end

section Total
variable {step : σ → α → σ}

/-- A step function that never stops. -/
def total (step : σ → α → σ) : σ → α → Except (Empty × σ) σ := fun state input => .ok (step state input)

/-- A step function that never stops takes all inputs. -/
theorem run_total (state : σ) (inputs : List α) :
    run (total step) state inputs = .ok (inputs.foldl step state) := by
  induction inputs generalizing state with
  | nil => rfl
  | cons input rest inductionHypothesis =>
    rw [run_ok state (step state input) input rest rfl, inductionHypothesis, List.foldl_cons]

/-- A condition along a run that cannot stop. -/
theorem meets_total (condition : σ → α → Prop) (state : σ) (inputs : List α) :
    Meets (total step) condition state inputs ↔
      ∀ earlier input, earlier ++ [input] <+: inputs →
        condition (earlier.foldl step state) input := by
  rw [meets_iff]
  constructor
  · intro each earlier input within
    exact each earlier input within _ (run_total state earlier)
  · intro each earlier input within before reached
    rw [run_total] at reached
    obtain rfl := Except.ok.inj reached
    exact each earlier input within

/-- An invariant kept by every step that meets a condition holds throughout a run
in which, from states with the invariant, each step meets it. -/
theorem total_invariant (condition : σ → α → Prop) (invariant : σ → Prop)
    (kept : ∀ state input, invariant state → condition state input → invariant (step state input))
    (state : σ) (inputs : List α) (initial : invariant state)
    (met : ∀ earlier input, earlier ++ [input] <+: inputs → invariant (earlier.foldl step state) →
      condition (earlier.foldl step state) input)
    (earlier : List α) (within : earlier <+: inputs) : invariant (earlier.foldl step state) := by
  induction earlier using List.reverseRecOn with
  | nil => exact initial
  | append_singleton shorter input inductionHypothesis =>
    have before := inductionHypothesis ((List.prefix_append shorter _).trans within)
    rw [List.foldl_append, List.foldl_cons, List.foldl_nil]
    exact kept _ input before (met shorter input within before)

end Total

end Runs
