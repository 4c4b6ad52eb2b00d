import IotCamera.Rtmp.Handles

/-!
# The pusher's threads, statement by statement

The loop, the control calls and the media threads share `status` and `_rtmp`
without a lock: the file defines `NO_THREAD_LOCK`. Here each statement of the
loop is a step of its own, and a media thread tests the status, writes, and
reports a lost connection in three steps. The statements of one iteration, run
alone, do what the iteration does as a whole.

A media thread reads `_rtmp` when it writes, after it has tested the status. The
loop destroys the handle before it takes the status back. So a write meets a dead
handle when the loop destroys between the test and the write, or when the test
falls between the destruction and the assignment of the status. Runs without
these two are safe.
-/

namespace IotCamera.Rtmp

/-- What the loop does after the cleanup it is in: look at `run_status` after a
failed attempt, connect again after a lost connection, or stop. -/
inductive Purpose where
  | failed
  | lost
  | exiting
  deriving DecidableEq, Repr

/-- The statement the loop comes to next. -/
inductive Pc where
  | switchStatus
  | testStart
  | leaveStopped
  | create
  | setTimeout
  | handshake
  | connectApp
  | publishStream
  | connect
  | testRtmp (purpose : Purpose)
  | destroy (purpose : Purpose)
  | clear (purpose : Purpose)
  | reconnect
  | testExit
  | stop
  deriving DecidableEq, Repr

def Purpose.next : Purpose → Pc
  | .failed => .testExit
  | .lost => .reconnect
  | .exiting => .stop

/-- A call of `open_url` that returned `ret`. -/
def attempted (ret : Int) (next : Pc) : Pc := if ret ≠ 0 then .testRtmp .failed else next

/-- One statement of the loop. -/
def statement (push : CRtmpPush) (outcomes : Outcomes) : Pc → CRtmpPush × Pc
  | .switchStatus =>
    match push.status with
    | .stopPush => (push, .testStart)
    | .connInit => (push, .create)
    | .connected => (push, .testExit)
    | .connErr => (push, .testRtmp .lost)
    | _ => (push, .switchStatus)
  | .testStart => (push, if push.runStatus = .runStatusStart then .leaveStopped else .switchStatus)
  | .leaveStopped => ({ push with status := .connInit }, .switchStatus)
  | .create =>
    let push := push.create outcomes.create
    (push, if push.rtmp = none then .testRtmp .failed else .setTimeout)
  | .setTimeout => (push.call (.setTimeout push.rtmp timeout timeout), .handshake)
  | .handshake => (push.call (.handshake push.rtmp), attempted outcomes.handshake .connectApp)
  | .connectApp => (push.call (.connectApp push.rtmp), attempted outcomes.connectApp .publishStream)
  | .publishStream => (push.call (.publishStream push.rtmp), attempted outcomes.publishStream .connect)
  | .connect => ({ push with status := .connected }, .testExit)
  | .testRtmp purpose => (push, if push.rtmp ≠ none then .destroy purpose else purpose.next)
  | .destroy purpose => (push.call (.destroy push.rtmp), .clear purpose)
  | .clear purpose => ({ push with rtmp := none }, purpose.next)
  | .reconnect => ({ push with status := .connInit }, .testExit)
  | .testExit =>
    (push, if push.runStatus = .runStatusExit then .testRtmp .exiting else .switchStatus)
  | .stop => ({ push with status := .stopPush }, .switchStatus)

inductive Media where
  | video
  | audio
  deriving DecidableEq, Repr

/-- Where a media thread stands: outside, past its test of the status, or with a
lost connection to report. -/
inductive Writer where
  | outside
  | writing (frame : Frame)
  | reporting
  deriving DecidableEq, Repr

structure System where
  push : CRtmpPush
  pc : Pc
  writers : Media → Writer

def System.init : System := ⟨CRtmpPush.new, .switchStatus, fun _ => .outside⟩

inductive ThreadAction where
  | startPush
  | stopPush
  | loop (outcomes : Outcomes)
  | test (media : Media) (frame : Frame)
  | write (media : Media) (wret : Int)
  | report (media : Media)
  deriving DecidableEq, Repr

/-- A write without a handle, or with one that was destroyed. -/
inductive DeadWrite where
  | nullHandle
  | destroyedHandle
  deriving DecidableEq, Repr

def Media.call : Media → Option Nat → Frame → SrsCall
  | .video => .h264WriteRawFrames
  | .audio => .adtsAacWriteRawFrame

/-- Move one media thread. -/
def System.at (system : System) (media : Media) (writer : Writer) : System :=
  { system with writers := Function.update system.writers media writer }

/-- Take a step; one that its thread is not about to take is passed over. -/
def threadStep (system : System) : ThreadAction → Except (DeadWrite × System) System
  | .startPush => .ok { system with push := system.push.startPush }
  | .stopPush => .ok { system with push := system.push.stopPush }
  | .loop outcomes =>
    let (push, pc) := statement system.push outcomes system.pc
    .ok { system with push := push, pc := pc }
  | .test media frame =>
    match system.writers media with
    | .outside =>
      if system.push.status = .connected then .ok (system.at media (.writing frame)) else .ok system
    | _ => .ok system
  | .write media wret =>
    match system.writers media with
    | .writing frame =>
      match system.push.rtmp with
      | none => .error (.nullHandle, system)
      | some handle =>
        if handle ∈ destroyed system.push.calls then .error (.destroyedHandle, system)
        else .ok { system.at media (if wret = 1009 then .reporting else .outside) with
          push := system.push.call (media.call system.push.rtmp frame) }
    | _ => .ok system
  | .report media =>
    match system.writers media with
    | .reporting =>
      .ok { system.at media .outside with push := { system.push with status := .connErr } }
    | _ => .ok system

section Alone
variable (outcomes : Outcomes) (writers : Media → Writer)

/-- The loop comes from one point to another by its own statements alone. -/
def Alone (push : CRtmpPush) (pc : Pc) (push' : CRtmpPush) (pc' : Pc) : Prop :=
  ∃ count, Runs.run threadStep ⟨push, pc, writers⟩ (List.replicate count (.loop outcomes)) =
    .ok ⟨push', pc', writers⟩

variable {outcomes writers}

/-- The loop is where it stands without a statement. -/
theorem alone_refl (push : CRtmpPush) (pc : Pc) : Alone outcomes writers push pc push pc := ⟨0, rfl⟩

/-- One statement and what follows it. -/
theorem alone_next (push push' push'' : CRtmpPush) (pc pc' pc'' : Pc)
    (taken : statement push outcomes pc = (push', pc'))
    (following : Alone outcomes writers push' pc' push'' pc'') :
    Alone outcomes writers push pc push'' pc'' := by
  obtain ⟨count, run⟩ := following
  refine ⟨count + 1, ?_⟩
  rw [List.replicate_succ, Runs.run_ok _ ⟨push', pc', writers⟩ _ _ (by simp only [threadStep, taken])]
  exact run

/-- Its statements can be taken one part after the other. -/
theorem alone_trans (push push' push'' : CRtmpPush) (pc pc' pc'' : Pc)
    (first : Alone outcomes writers push pc push' pc')
    (second : Alone outcomes writers push' pc' push'' pc'') :
    Alone outcomes writers push pc push'' pc'' := by
  obtain ⟨count, run⟩ := first
  obtain ⟨more, rest⟩ := second
  refine ⟨count + more, ?_⟩
  rw [List.replicate_add, Runs.run_append _ _ _ _ run, rest]

/-- The statements of `cleanup`. -/
theorem alone_cleanup (push : CRtmpPush) (purpose : Purpose) :
    Alone outcomes writers push (.testRtmp purpose) push.cleanup purpose.next := by
  by_cases held : push.rtmp = none
  · refine alone_next _ push _ _ purpose.next _ (by simp [statement, held]) ?_
    rw [CRtmpPush.cleanup, if_neg (by simpa using held)]
    exact alone_refl ..
  · refine alone_next _ push _ _ (.destroy purpose) _ (by simp [statement, held]) ?_
    refine alone_next _ _ _ _ _ _ rfl ?_
    refine alone_next _ _ _ _ _ _ rfl ?_
    rw [CRtmpPush.cleanup, if_pos held]
    exact alone_refl ..

/-- The statements of the test of `run_status`. -/
theorem alone_check (push : CRtmpPush) :
    Alone outcomes writers push .testExit push.checkRunstatus .switchStatus := by
  by_cases told : push.runStatus = .runStatusExit
  · refine alone_next _ push _ _ (.testRtmp .exiting) _ (by simp [statement, told]) ?_
    refine alone_trans _ _ _ _ _ _ (alone_cleanup push .exiting) ?_
    refine alone_next _ _ _ _ _ _ rfl ?_
    rw [CRtmpPush.checkRunstatus, if_pos told]
    exact alone_refl ..
  · refine alone_next _ push _ _ .switchStatus _ (by simp [statement, told]) ?_
    rw [CRtmpPush.checkRunstatus, if_neg told]
    exact alone_refl ..

/-- A call of `open_url` returns: the attempt has failed or goes on. -/
theorem alone_attempted (push push' : CRtmpPush) (ret : Int) (next pc' : Pc)
    (fails : ret ≠ 0 → Alone outcomes writers push (.testRtmp .failed) push' pc')
    (goes : ret = 0 → Alone outcomes writers push next push' pc') :
    Alone outcomes writers push (attempted ret next) push' pc' := by
  by_cases zero : ret = 0
  · simpa [attempted, zero] using goes zero
  · simpa [attempted, zero] using fails zero

/-- The statements of a connection attempt up to the test of `run_status`. -/
theorem alone_attempt (push : CRtmpPush) :
    Alone outcomes writers push .create
      (if (push.openUrl outcomes).2 = 0 then { (push.openUrl outcomes).1 with status := .connected }
        else (push.openUrl outcomes).1.deinit) .testExit := by
  refine alone_next _ _ _ _ _ _ rfl ?_
  by_cases vacant : (push.create outcomes.create).rtmp = none
  · simp only [CRtmpPush.openUrl, vacant, ↓reduceIte]
    exact alone_cleanup _ .failed
  · rw [if_neg vacant]
    refine alone_next _ _ _ _ _ _ rfl ?_
    refine alone_next _ _ _ _ _ _ rfl (alone_attempted _ _ _ _ _ (fun fails => ?_) fun goes => ?_)
    · simp only [CRtmpPush.openUrl, vacant, ↓reduceIte, fails, ne_eq, not_false_eq_true]
      exact alone_cleanup _ .failed
    refine alone_next _ _ _ _ _ _ rfl (alone_attempted _ _ _ _ _ (fun fails => ?_) fun goes' => ?_)
    · simp only [CRtmpPush.openUrl, vacant, ↓reduceIte, goes, fails, ne_eq, not_true_eq_false,
        not_false_eq_true]
      exact alone_cleanup _ .failed
    refine alone_next _ _ _ _ _ _ rfl (alone_attempted _ _ _ _ _ (fun fails => ?_) fun succeeds => ?_)
    · simp only [CRtmpPush.openUrl, vacant, ↓reduceIte, goes, goes', fails, ne_eq, not_true_eq_false]
      exact alone_cleanup _ .failed
    · refine alone_next _ _ _ _ _ _ rfl ?_
      simp only [CRtmpPush.openUrl, vacant, ↓reduceIte, goes, goes', succeeds, ne_eq,
        not_true_eq_false]
      exact alone_refl ..

/-- Run alone, the statements of the loop from one `switch` to the next are one
iteration. -/
theorem iteration_alone (push : CRtmpPush) :
    ∃ next, statement push outcomes .switchStatus = (push, next) ∧
      Alone outcomes writers push next (push.runIteration outcomes) .switchStatus := by
  cases stands : push.status with
  | stopPush =>
    refine ⟨.testStart, by simp only [statement, stands], alone_next _ _ _ _ _ _ rfl ?_⟩
    simp only [CRtmpPush.runIteration, stands]
    split
    · exact alone_next _ _ _ _ _ _ rfl (alone_refl ..)
    · exact alone_refl ..
  | connInit =>
    refine ⟨.create, by simp only [statement, stands],
      alone_trans _ _ _ _ _ _ (alone_attempt push) ?_⟩
    by_cases succeeds : (push.openUrl outcomes).2 = 0
    · simp only [CRtmpPush.runIteration, stands, CRtmpPush.init, succeeds, ↓reduceIte]
      exact alone_check _
    · simp only [CRtmpPush.runIteration, stands, CRtmpPush.init, succeeds, ↓reduceIte]
      exact alone_check _
  | connected =>
    refine ⟨.testExit, by simp only [statement, stands], ?_⟩
    simp only [CRtmpPush.runIteration, stands]
    exact alone_check push
  | connErr =>
    refine ⟨.testRtmp .lost, by simp only [statement, stands],
      alone_trans _ _ _ _ _ _ (alone_cleanup push .lost) (alone_next _ _ _ _ _ _ rfl ?_)⟩
    simp only [CRtmpPush.runIteration, stands]
    exact alone_check _
  | runStatusStart | runStatusExit | runStatusEnd =>
    refine ⟨.switchStatus, by simp only [statement, stands], ?_⟩
    simp only [CRtmpPush.runIteration, stands]
    exact alone_refl ..

end Alone

end IotCamera.Rtmp
