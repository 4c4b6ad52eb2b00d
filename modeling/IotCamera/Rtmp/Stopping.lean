import Mathlib.Data.List.Induction
import IotCamera.Rtmp.Push

/-!
# Stop requests

`stopPush` looks at a status that only the loop advances. A request that comes
after `startPush` and before the loop has left the stopped state is passed over,
and the loop then connects as if nobody had asked it to stop. A request that
comes before the connection attempt is noted, but the loop makes the attempt
before it looks. These are the only ways in which a stop request is lost.
-/

namespace IotCamera.Rtmp

/-- Whether the latest control call was `stopPush`. -/
def stopRequested (actions : List Action) : Bool :=
  actions.foldl (fun requested action =>
    match action with
    | .startPush => false
    | .stopPush => true
    | _ => requested) false

/-- In every state of a run whose latest control call was `stopPush`, the loop is
told to exit, and an iteration that comes next neither leaves the stopped state
nor opens a connection. -/
def StopsHeeded (actions : List Action) : Prop :=
  ∀ earlier, earlier <+: actions → stopRequested earlier = true →
    (after earlier).runStatus = .runStatusExit ∧
      ∀ outcomes, earlier ++ [.iteration outcomes] <+: actions →
        ¬ ((after earlier).status = .stopPush ∧
          (after (earlier ++ [.iteration outcomes])).status = .connInit) ∧
        openings (after (earlier ++ [.iteration outcomes])).calls = openings (after earlier).calls

/-- A stop request does not find the pusher stopped with a start pending, and no
iteration comes to the connection attempt after it was told to exit. -/
def Timely (push : CRtmpPush) : Action → Prop
  | .stopPush => push.status = .stopPush → push.runStatus = .runStatusExit
  | .iteration _ => push.status = .connInit → push.runStatus ≠ .runStatusExit
  | _ => True

/-- The last start or stop decides whether a stop was requested. -/
theorem stop_requested_snoc (actions : List Action) (action : Action) :
    stopRequested (actions ++ [action]) =
      match action with
      | .startPush => false
      | .stopPush => true
      | _ => stopRequested actions := by
  simp only [stopRequested, List.foldl_append, List.foldl_cons, List.foldl_nil]

/-- The openings with one more call. -/
@[simp] theorem openings_snoc (calls : List SrsCall) (call : SrsCall) :
    openings (calls ++ [call]) = openings calls +
      match call with
      | .create _ => 1
      | _ => 0 := by
  cases call <;> simp [openings]

/-- Cleaning up leaves the run status as it is. -/
@[simp] theorem cleanup_run_status (push : CRtmpPush) : push.cleanup.runStatus = push.runStatus := by
  unfold CRtmpPush.cleanup
  split <;> rfl

/-- Destroying a handle opens nothing. -/
@[simp] theorem cleanup_openings (push : CRtmpPush) :
    openings push.cleanup.calls = openings push.calls := by
  unfold CRtmpPush.cleanup
  split <;> simp [CRtmpPush.call]

/-- A connection attempt opens once, whatever comes of it. -/
theorem open_url_openings (push : CRtmpPush) (outcomes : Outcomes) :
    openings (push.openUrl outcomes).1.calls = openings push.calls + 1 := by
  unfold CRtmpPush.openUrl
  dsimp only
  split
  · simp only [CRtmpPush.create, CRtmpPush.call, openings_snoc]
  · split
    · simp only [CRtmpPush.create, CRtmpPush.call, openings_snoc, Nat.add_zero]
    · split <;> simp only [CRtmpPush.create, CRtmpPush.call, openings_snoc, Nat.add_zero]

/-- So does opening the url. -/
theorem open_url_run_status (push : CRtmpPush) (outcomes : Outcomes) :
    (push.openUrl outcomes).1.runStatus = push.runStatus := by
  unfold CRtmpPush.openUrl
  dsimp only
  split
  · rfl
  · split
    · rfl
    · split <;> rfl

/-- So does checking it. -/
@[simp] theorem check_run_status (push : CRtmpPush) :
    push.checkRunstatus.runStatus = push.runStatus := by
  unfold CRtmpPush.checkRunstatus
  split <;> simp [CRtmpPush.deinit]

/-- Checking the run status opens nothing. -/
@[simp] theorem check_openings (push : CRtmpPush) :
    openings push.checkRunstatus.calls = openings push.calls := by
  unfold CRtmpPush.checkRunstatus
  split <;> simp [CRtmpPush.deinit]

/-- The loop never changes what it was told. -/
theorem iteration_run_status (push : CRtmpPush) (outcomes : Outcomes) :
    (push.runIteration outcomes).runStatus = push.runStatus := by
  have opened := open_url_run_status push outcomes
  cases stands : push.status with
  | connInit =>
    by_cases connects : (push.openUrl outcomes).2 = 0 <;>
      simpa [CRtmpPush.runIteration, stands, CRtmpPush.init, CRtmpPush.deinit, connects] using opened
  | stopPush =>
    simp only [CRtmpPush.runIteration, stands]
    split <;> rfl
  | connected | connErr | runStatusStart | runStatusExit | runStatusEnd =>
    simp [CRtmpPush.runIteration, stands, CRtmpPush.deinit]

/-- Only the connection attempt opens, and it always does. -/
theorem iteration_openings (push : CRtmpPush) (outcomes : Outcomes) :
    openings (push.runIteration outcomes).calls =
      openings push.calls + if push.status = .connInit then 1 else 0 := by
  have opened := open_url_openings push outcomes
  cases stands : push.status with
  | connInit =>
    by_cases connects : (push.openUrl outcomes).2 = 0 <;>
      simpa [CRtmpPush.runIteration, stands, CRtmpPush.init, CRtmpPush.deinit, connects] using opened
  | stopPush =>
    simp only [CRtmpPush.runIteration, stands]
    split <;> simp
  | connected | connErr | runStatusStart | runStatusExit | runStatusEnd =>
    simp [CRtmpPush.runIteration, stands, CRtmpPush.deinit]

/-- A pusher that is stopped and told to exit stays as it is. -/
theorem iteration_stopped (push : CRtmpPush) (outcomes : Outcomes)
    (stands : push.status = .stopPush) (told : push.runStatus = .runStatusExit) :
    push.runIteration outcomes = push := by
  simp [CRtmpPush.runIteration, stands, told]

/-- A write leaves what the loop was told. -/
theorem write_run_status (push : CRtmpPush) (call : SrsCall) (wret : Int) :
    (push.writeRawData call wret).runStatus = push.runStatus := by
  unfold CRtmpPush.writeRawData
  split
  · dsimp only
    split <;> rfl
  · rfl

/-- A write while the pusher is not connected does nothing. -/
theorem write_stopped (push : CRtmpPush) (call : SrsCall) (wret : Int)
    (stands : push.status = .stopPush) : push.writeRawData call wret = push := by
  simp [CRtmpPush.writeRawData, stands]

/-- Before the first control call, and after a start, the pusher is told to exit
only while it is stopped. -/
theorem unrequested_stopped (actions : List Action) (quiet : stopRequested actions = false)
    (told : (after actions).runStatus = .runStatusExit) :
    (after actions).status = .stopPush := by
  induction actions using List.reverseRecOn with
  | nil => rfl
  | append_singleton earlier action inductionHypothesis =>
    rw [stop_requested_snoc] at quiet
    rw [after_snoc] at told ⊢
    cases action with
    | startPush => cases told
    | stopPush => cases quiet
    | iteration outcomes =>
      have before := (iteration_run_status (after earlier) outcomes).symm.trans told
      have stands := inductionHypothesis quiet before
      rw [step, iteration_stopped _ outcomes stands before, stands]
    | writeH264RawData frame wret | writeAACRawData frame wret =>
      have stands := inductionHypothesis quiet ((write_run_status ..).symm.trans told)
      exact (congrArg CRtmpPush.status (write_stopped _ _ wret stands)).trans stands

/-- When every stop request is timely, a requested stop stands. -/
theorem requested_told (actions : List Action)
    (timely : ∀ earlier action, earlier ++ [action] <+: actions →
      Timely (after earlier) action)
    (requested : stopRequested actions = true) :
    (after actions).runStatus = .runStatusExit := by
  induction actions using List.reverseRecOn with
  | nil => cases requested
  | append_singleton earlier action inductionHypothesis =>
    have before := inductionHypothesis fun first input within =>
      timely first input (within.trans (List.prefix_append earlier [action]))
    have now := timely earlier action (List.prefix_refl _)
    rw [stop_requested_snoc] at requested
    rw [after_snoc]
    cases action with
    | startPush => cases requested
    | stopPush =>
      simp only [step, CRtmpPush.stopPush]
      split
      · rename_i stands
        exact now stands
      · rfl
    | iteration outcomes => exact (iteration_run_status _ outcomes).trans (before requested)
    | writeH264RawData frame wret | writeAACRawData frame wret =>
      exact (write_run_status ..).trans (before requested)

/-- Stop requests are heeded along a run exactly when each comes at a time at
which the loop can take it. -/
theorem stops_heeded_iff_timely (actions : List Action) :
    StopsHeeded actions ↔ Runs.Meets (Runs.total step) Timely CRtmpPush.new actions := by
  rw [Runs.meets_total]
  change StopsHeeded actions ↔
    ∀ earlier action, earlier ++ [action] <+: actions → Timely (after earlier) action
  constructor
  · intro heeded earlier action within
    cases action with
    | startPush | writeH264RawData | writeAACRawData => trivial
    | stopPush =>
      intro stands
      have told := (heeded _ within (by rw [stop_requested_snoc])).1
      rw [after_snoc] at told
      simpa only [step, CRtmpPush.stopPush, stands] using told
    | iteration outcomes =>
      intro attempting told
      have shorter := (List.prefix_append earlier _).trans within
      cases requested : stopRequested earlier with
      | false =>
        rw [unrequested_stopped earlier requested told] at attempting
        cases attempting
      | true =>
        have opened := ((heeded earlier shorter requested).2 outcomes within).2
        rw [after_snoc, step, iteration_openings, if_pos attempting] at opened
        omega
  · intro timely earlier within requested
    have told := requested_told earlier
      (fun first input inside => timely first input (inside.trans within)) requested
    refine ⟨told, ?_⟩
    intro outcomes next
    have attempting := timely earlier _ next
    rw [after_snoc]
    constructor
    · rintro ⟨stands, leaves⟩
      rw [step, iteration_stopped _ outcomes stands told, stands] at leaves
      cases leaves
    · rw [step, iteration_openings, if_neg fun stands => attempting stands told, Nat.add_zero]

/-- A stop right after a start leaves the loop told to start; a stop after the
loop has left the stopped state is followed by a connection attempt. -/
theorem stop_requests_lost :
    ¬ StopsHeeded [.startPush, .stopPush] ∧
      ¬ StopsHeeded [.startPush, .iteration ⟨true, 0, 0, 0⟩, .stopPush,
        .iteration ⟨true, 0, 0, 0⟩] := by
  constructor
  · intro heeded
    have told := (heeded _ (List.prefix_refl _) rfl).1
    revert told
    decide
  · intro heeded
    have opened := ((heeded [.startPush, .iteration ⟨true, 0, 0, 0⟩, .stopPush] (by decide) rfl).2
      ⟨true, 0, 0, 0⟩ (List.prefix_refl _)).2
    revert opened
    decide

end IotCamera.Rtmp
