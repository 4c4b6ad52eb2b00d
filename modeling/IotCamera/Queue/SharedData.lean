import IotCamera.Base.Places
import IotCamera.Base.Runs

/-!
# One object on several queues

`mdata_push` of `mqueue.cpp` counts a queue into an `MDATA` and pushes the
pointer; the queue's consumer pops it and calls `release`, which counts the queue
out and deletes the object when the count has come to zero. The count starts at
zero, so it is right only for the queues counted so far, and `release` reads it
once more after counting down.

The object is published on `k` queues and released once for each. Counting in,
pushing, popping, counting down and the test are atomic steps, each queue takes
them in this order, and the queues interleave in any way. Using the object after
it was deleted is a fault. The count is an `int`; a process has no room for two
to the thirty-one queues, so it is an integer here.
-/

namespace IotCamera.SharedData

/-- How far one queue is with the object. -/
inductive Stage where
  | unpublished
  | counted
  | queued
  | popped
  | decremented
  | released
  deriving DecidableEq, Repr

/-- The object's count while it exists, the queues, and how often it was deleted. -/
structure Shared where
  refcount : Option Int
  queues : List Stage
  deletions : Nat
  deriving DecidableEq, Repr

/-- A new object that is to be published on `k` queues. -/
def Shared.init (k : Nat) : Shared := ⟨some 0, List.replicate k .unpublished, 0⟩

inductive Action where
  | increment (queue : Nat)
  | pushData (queue : Nat)
  | popData (queue : Nat)
  | decrement (queue : Nat)
  | test (queue : Nat)
  deriving DecidableEq, Repr

/-- Using the object after its deletion. -/
inductive Fault where
  | deleted
  deriving DecidableEq, Repr

/-- One step of `mdata_push` or of a consumer. A step that is not the next one of
its queue is passed over. -/
def step (shared : Shared) : Action → Except (Fault × Shared) Shared
  | .increment queue =>
    match shared.queues[queue]?, shared.refcount with
    | some .unpublished, some refcount =>
      .ok { shared with refcount := some (refcount + 1), queues := shared.queues.set queue .counted }
    | some .unpublished, none => .error (.deleted, shared)
    | _, _ => .ok shared
  | .pushData queue =>
    match shared.queues[queue]? with
    | some .counted => .ok { shared with queues := shared.queues.set queue .queued }
    | _ => .ok shared
  | .popData queue =>
    match shared.queues[queue]? with
    | some .queued => .ok { shared with queues := shared.queues.set queue .popped }
    | _ => .ok shared
  | .decrement queue =>
    match shared.queues[queue]?, shared.refcount with
    | some .popped, some refcount =>
      .ok { shared with
        refcount := some (refcount - 1)
        queues := shared.queues.set queue .decremented }
    | some .popped, none => .error (.deleted, shared)
    | _, _ => .ok shared
  | .test queue =>
    match shared.queues[queue]?, shared.refcount with
    | some .decremented, some refcount =>
      if refcount = 0 then
        .ok ⟨none, shared.queues.set queue .released, shared.deletions + 1⟩
      else .ok { shared with queues := shared.queues.set queue .released }
    | some .decremented, none => .error (.deleted, shared)
    | _, _ => .ok shared

/-- Whether every queue's release has returned. -/
def Shared.allReleased (shared : Shared) : Bool := shared.queues.all (· == .released)

/-- At every point of a run: nothing has used the object after its deletion, and
it has been deleted once if all releases have returned and not otherwise. -/
def OutlivesReleases (k : Nat) (actions : List Action) : Prop :=
  ∀ earlier, earlier <+: actions →
    ∃ shared, Runs.run step (Shared.init k) earlier = .ok shared ∧
      shared.deletions = if shared.allReleased then 1 else 0

/-- A release that finds the count at zero finds every queue counted in and no
other release between its decrement and its test. -/
def Settled (shared : Shared) : Action → Prop
  | .test queue =>
    shared.queues[queue]? = some .decremented → shared.refcount = some 0 →
      Stage.unpublished ∉ shared.queues ∧
        ∀ other < shared.queues.length,
          shared.queues[other]? = some .decremented → other = queue
  | _ => True

instance (shared : Shared) (action : Action) : Decidable (Settled shared action) :=
  match action with
  | .test _ => inferInstanceAs (Decidable (_ → _ → _ ∧ ∀ other < _, _))
  | .increment _ | .pushData _ | .popData _ | .decrement _ => isTrue trivial

/-- Whether a queue is counted in and not yet counted out. -/
def Stage.live : Stage → Bool
  | .counted | .queued | .popped => true
  | .unpublished | .decremented | .released => false

/-- The count is the number of live queues until the last release has returned. -/
inductive Invariant (shared : Shared) : Prop where
  | exists (count : shared.refcount = some (shared.queues.countP Stage.live : Int))
      (undeleted : shared.deletions = 0) (pending : shared.allReleased = false)
  | gone (deleted : shared.refcount = none) (once : shared.deletions = 1)
      (finished : shared.allReleased = true)

/-- All queues are released when each of them is. -/
theorem all_released_iff (shared : Shared) :
    shared.allReleased = true ↔ ∀ stage ∈ shared.queues, stage = .released := by
  simp [Shared.allReleased]

/-- A queue that has not been released keeps the releases unfinished. -/
theorem not_all_released (shared : Shared) (stage : Stage) (member : stage ∈ shared.queues)
    (unfinished : stage ≠ .released) : shared.allReleased = false := by
  rw [Bool.eq_false_iff]
  intro finished
  exact unfinished ((all_released_iff shared).mp finished stage member)

/-- At first the count is the number of queues. -/
theorem init_invariant (k : Nat) (some_queue : 1 ≤ k) : Invariant (Shared.init k) := by
  refine .exists ?_ rfl ?_
  · simp [Shared.init, List.countP_replicate, Stage.live]
  · refine not_all_released _ .unpublished ?_ (by decide)
    exact List.mem_replicate.mpr ⟨by omega, rfl⟩

/-- A queue takes a step before its last one, with the count following. -/
theorem moved_exists (shared : Shared) (queue : Nat) (place next : Stage) (refcount : Int)
    (here : shared.queues[queue]? = some place)
    (paid : refcount + place.live.toNat = shared.queues.countP Stage.live + next.live.toNat)
    (undeleted : shared.deletions = 0) (unfinished : next ≠ .released) :
    Invariant { shared with refcount := some refcount, queues := shared.queues.set queue next } := by
  have counted := Places.count_moved Stage.live shared.queues queue place next here
  refine .exists ?_ undeleted ?_
  · show some refcount = some ((shared.queues.set queue next).countP Stage.live : Int)
    congr 1
    omega
  · refine not_all_released _ next ?_ unfinished
    exact List.mem_of_getElem? (Places.moved_self _ queue place next here)

/-- Once all releases have returned no queue has a step left. -/
theorem finished_step (shared : Shared) (action : Action) (finished : shared.allReleased = true) :
    step shared action = .ok shared := by
  have released : ∀ (queue : Nat) (stage : Stage), shared.queues[queue]? = some stage →
      stage = .released := fun queue stage stands =>
    (all_released_iff shared).mp finished stage (List.mem_of_getElem? stands)
  have beyond : ∀ queue : Nat, shared.queues[queue]? = none ∨
      shared.queues[queue]? = some .released := by
    intro queue
    cases stands : shared.queues[queue]? with
    | none => exact Or.inl rfl
    | some stage => exact Or.inr (by rw [released queue stage stands])
  cases action with
  | increment queue | pushData queue | popData queue | decrement queue | test queue =>
    rcases beyond queue with stands | stands <;> simp only [step, stands]

/-- A release that finds the count at zero in a settled state is the last one. -/
theorem settled_test_finishes (shared : Shared) (queue : Nat)
    (zero : shared.queues.countP Stage.live = 0) (published : Stage.unpublished ∉ shared.queues)
    (alone : ∀ other < shared.queues.length,
      shared.queues[other]? = some .decremented → other = queue) :
    ∀ stage ∈ shared.queues.set queue .released, stage = .released := by
  intro stage member
  obtain ⟨other, stands⟩ := List.mem_iff_getElem?.mp member
  rcases Places.moved_place _ queue other _ stage stands with ⟨_, same⟩ | ⟨different, before⟩
  · exact same
  have old : stage ∈ shared.queues := List.mem_of_getElem? before
  have still : ¬ stage.live = true := List.countP_eq_zero.mp zero stage old
  cases stage with
  | unpublished => exact absurd old published
  | counted | queued | popped => exact absurd rfl still
  | decremented =>
    exact absurd (alone other (List.getElem?_eq_some_iff.mp before).1 before) different
  | released => rfl

/-- A test in a settled state returns and keeps the invariant. -/
theorem test_invariant (shared : Shared) (queue : Nat)
    (here : shared.queues[queue]? = some .decremented)
    (count : shared.refcount = some (shared.queues.countP Stage.live : Int))
    (undeleted : shared.deletions = 0) (settled : Settled shared (.test queue)) :
    ∃ after, step shared (.test queue) = .ok after ∧ Invariant after := by
  have counted := Places.count_moved Stage.live shared.queues queue _ .released here
  simp only [Stage.live, Bool.toNat_false, Nat.add_zero] at counted
  simp only [step, here, count]
  split
  · rename_i none
    have zero : shared.queues.countP Stage.live = 0 := by exact_mod_cast none
    obtain ⟨published, alone⟩ := settled here (by rw [count, none])
    refine ⟨_, rfl, .gone rfl (by simp [undeleted]) ?_⟩
    rw [all_released_iff]
    exact settled_test_finishes shared queue zero published alone
  · rename_i more
    refine ⟨_, rfl, .exists ?_ undeleted ?_⟩
    · simp only [counted]
    · have some_live : 0 < (shared.queues.set queue .released).countP Stage.live := by omega
      obtain ⟨stage, member, live⟩ := List.countP_pos_iff.mp some_live
      refine not_all_released _ stage member ?_
      rintro rfl
      cases live

/-- Every step in a settled state returns and keeps the invariant. -/
theorem step_invariant (shared : Shared) (action : Action) (invariant : Invariant shared)
    (settled : Settled shared action) :
    ∃ after, step shared action = .ok after ∧ Invariant after := by
  cases invariant with
  | gone deleted once finished =>
    exact ⟨shared, finished_step shared action finished, .gone deleted once finished⟩
  | «exists» count undeleted pending =>
    have kept : Invariant shared := .exists count undeleted pending
    cases action with
    | increment queue =>
      cases here : shared.queues[queue]? with
      | none => exact ⟨shared, by simp only [step, here], kept⟩
      | some stage =>
        cases stage with
        | unpublished =>
          have moved := moved_exists shared queue _ .counted
            (shared.queues.countP Stage.live + 1) here (by simp [Stage.live]) undeleted (by decide)
          exact ⟨_, by simp only [step, here, count], moved⟩
        | counted | queued | popped | decremented | released =>
          exact ⟨shared, by simp only [step, here], kept⟩
    | pushData queue =>
      simp only [step]
      split
      · rename_i here
        have moved := moved_exists shared queue _ .queued _ here rfl undeleted (by decide)
        exact ⟨_, rfl, by simpa only [← count] using moved⟩
      · exact ⟨_, rfl, kept⟩
    | popData queue =>
      simp only [step]
      split
      · rename_i here
        have moved := moved_exists shared queue _ .popped _ here rfl undeleted (by decide)
        exact ⟨_, rfl, by simpa only [← count] using moved⟩
      · exact ⟨_, rfl, kept⟩
    | decrement queue =>
      cases here : shared.queues[queue]? with
      | none => exact ⟨shared, by simp only [step, here], kept⟩
      | some stage =>
        cases stage with
        | popped =>
          have moved := moved_exists shared queue _ .decremented
            (shared.queues.countP Stage.live - 1) here (by simp [Stage.live]) undeleted (by decide)
          exact ⟨_, by simp only [step, here, count], moved⟩
        | unpublished | counted | queued | decremented | released =>
          exact ⟨shared, by simp only [step, here], kept⟩
    | test queue =>
      cases here : shared.queues[queue]? with
      | none => exact ⟨shared, by simp only [step, here], kept⟩
      | some stage =>
        cases stage with
        | decremented => exact test_invariant shared queue here count undeleted settled
        | unpublished | counted | queued | popped | released =>
          exact ⟨shared, by simp only [step, here], kept⟩

/-- The object outlives its releases and is deleted once exactly when each
release that finds the count at zero comes after all counting and testing of the
others. -/
theorem outlives_iff_settled (k : Nat) (some_queue : 1 ≤ k) (actions : List Action) :
    OutlivesReleases k actions ↔ Runs.Meets step Settled (Shared.init k) actions := by
  constructor
  · intro outlives
    rw [Runs.meets_iff]
    intro earlier action within before reached
    cases action with
    | increment | pushData | popData | decrement => trivial
    | test queue =>
      intro here zero
      have taken : step before (.test queue) =
          .ok ⟨none, before.queues.set queue .released, before.deletions + 1⟩ := by
        simp only [step, here, zero, ↓reduceIte]
      obtain ⟨after, run, deletions⟩ := outlives _ within
      rw [Runs.run_snoc _ before earlier _ reached, taken] at run
      obtain rfl := Except.ok.inj run
      -- the object has been deleted, so every queue's release has returned
      have finished : ∀ stage ∈ before.queues.set queue .released, stage = .released := by
        rw [← all_released_iff ⟨none, before.queues.set queue .released, before.deletions + 1⟩]
        by_contra unfinished
        rw [if_neg unfinished] at deletions
        cases deletions
      have others : ∀ (other : Nat) (stage : Stage), before.queues[other]? = some stage →
          other ≠ queue → stage = .released := by
        intro other stage stands different
        apply finished stage
        rw [← List.getElem?_set_ne (Ne.symm different)] at stands
        exact List.mem_of_getElem? stands
      constructor
      · intro member
        obtain ⟨other, stands⟩ := List.mem_iff_getElem?.mp member
        by_cases same : other = queue
        · subst same
          rw [here] at stands
          cases stands
        · cases others other _ stands same
      · intro other _ stands
        by_contra different
        cases others other _ stands different
  · intro met earlier within
    obtain ⟨shared, run, invariant⟩ := Runs.run_returns Settled Invariant step_invariant
      (Shared.init k) earlier (init_invariant k some_queue)
      (Runs.meets_prefix Settled _ earlier actions within met)
    refine ⟨shared, run, ?_⟩
    cases invariant with
    | «exists» count undeleted pending => simp [undeleted, pending]
    | gone deleted once finished => simp [once, finished]

/-- Two queues, both counted in before either is counted out, and releases one
after the other. -/
theorem outlives_counted_first :
    OutlivesReleases 2 [.increment 0, .pushData 0, .increment 1, .pushData 1, .popData 0,
      .decrement 0, .test 0, .popData 1, .decrement 1, .test 1] :=
  (outlives_iff_settled 2 (by decide) _).mpr (by decide)

/-- The first consumer releases before the second queue is counted in: the object
is gone when `mdata_push` counts again. With both queues counted in, two releases
that overlap read the count after one of them has deleted the object. -/
theorem early_release_deletes :
    ¬ OutlivesReleases 2 [.increment 0, .pushData 0, .popData 0, .decrement 0, .test 0,
        .increment 1] ∧
      ¬ OutlivesReleases 2 [.increment 0, .pushData 0, .increment 1, .pushData 1, .popData 0,
        .popData 1, .decrement 0, .decrement 1, .test 0, .test 1] := by
  have stops : ∀ actions, (Runs.run step (Shared.init 2) actions).isOk = false →
      ¬ OutlivesReleases 2 actions := by
    intro actions stopped outlives
    obtain ⟨shared, run, _⟩ := outlives actions (List.prefix_refl actions)
    rw [run] at stopped
    cases stopped
  exact ⟨stops _ (by decide), stops _ (by decide)⟩

end IotCamera.SharedData
