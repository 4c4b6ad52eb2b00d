import Mathlib.Logic.Function.Basic
import IotCamera.Kcp.Session

/-!
# The lock of the KCP session

`udpkcp.cpp`: three functions work on `kcp1` under `kcpThreadLock`.
`udp_msg_sender` takes it around the handling of one datagram and gives it back.
`handle_update` takes it before its endless loop, so the unlock behind the loop is
never reached. `sendKcpData` takes it and returns without giving it back.

Each statement is one atomic step, with any number of threads that call
`sendKcpData` any number of times, in any order. The mutex is a default one: a
thread that finds it taken, by itself as well, waits. The results of `recvfrom`
and `ikcp_recv` are arguments of the step. The delay and the clock that
`ikcp_update` is given are left out.
-/

namespace IotCamera.Kcp.Locking

/-- The statement that `udp_msg_sender` comes to next. -/
inductive Receiver where
  | recvfrom
  | lock
  | input
  | recv
  | unlock
  deriving DecidableEq, Repr

/-- The statement that `handle_update` comes to next; `ended` is the top of the
loop after an iteration. -/
inductive Updater where
  | lock
  | count
  | update
  | test
  | release
  | init
  | ended
  deriving DecidableEq, Repr

/-- The statement that a thread comes to next that calls `sendKcpData`. -/
inductive Sender where
  | outside
  | lock
  | send
  | finish
  | returned
  deriving DecidableEq, Repr

inductive Thread where
  | receiver
  | updater
  | sender (thread : Nat)
  deriving DecidableEq, Repr

structure System where
  kcpThreadLock : Option Thread
  session : Session
  receiver : Receiver
  updater : Updater
  senders : Nat → Sender

/-- The threads as `udpKcpInit` starts them. -/
def System.init : System := ⟨none, udpKcpInit, .recvfrom, .lock, fun _ => .outside⟩

/-- A step of one of the threads; `hr` is what the receiver's call gives. -/
inductive Action where
  | receiver (hr : Int)
  | updater
  | sender (thread : Nat)
  deriving DecidableEq, Repr

def Action.thread : Action → Thread
  | .receiver _ => .receiver
  | .updater => .updater
  | .sender thread => .sender thread

/-- One statement of `udp_msg_sender`. -/
def receiverStep (system : System) (hr : Int) : System :=
  match system.receiver with
  | .recvfrom => if hr = -1 then system else { system with receiver := .lock }
  | .lock =>
    if system.kcpThreadLock = none then
      { system with kcpThreadLock := some .receiver, receiver := .input }
    else system
  | .input => { system with receiver := .recv }
  | .recv =>
    if hr ≤ 0 then { system with receiver := .unlock }
    else { system with session := { system.session with lastrecvtim := 0 } }
  | .unlock => { system with kcpThreadLock := none, receiver := .recvfrom }

/-- One statement of `handle_update`. -/
def updaterStep (system : System) : System :=
  match system.updater with
  | .lock =>
    if system.kcpThreadLock = none then
      { system with kcpThreadLock := some .updater, updater := .count }
    else system
  | .count | .ended => { system with session := system.session.count, updater := .update }
  | .update => { system with updater := .test }
  | .test => { system with updater := if system.session.expired then .release else .ended }
  | .release => { system with updater := .init }
  | .init => { system with session := initKCP system.session, updater := .ended }

/-- Move one of the sending threads. -/
def System.senderAt (system : System) (thread : Nat) (place : Sender) : System :=
  { system with senders := Function.update system.senders thread place }

/-- One statement of a thread that calls `sendKcpData`; the first one is the call. -/
def senderStep (system : System) (thread : Nat) : System :=
  match system.senders thread with
  | .outside | .returned => system.senderAt thread .lock
  | .lock =>
    if system.kcpThreadLock = none then
      { system.senderAt thread .send with kcpThreadLock := some (.sender thread) }
    else system
  | .send => system.senderAt thread .finish
  | .finish => system.senderAt thread .returned

def step (system : System) : Action → System
  | .receiver hr => receiverStep system hr
  | .updater => updaterStep system
  | .sender thread => senderStep system thread

/-- The state after a run from the start. -/
def after (actions : List Action) : System := actions.foldl step System.init

/-- One more action is a step from where the others led. -/
theorem after_snoc (actions : List Action) (action : Action) :
    after (actions ++ [action]) = step (after actions) action := by
  simp only [after, List.foldl_append, List.foldl_cons, List.foldl_nil]

/-- A thread is in the operation that it takes the lock for: behind its lock
statement, and before the end of the datagram, the iteration or the call. -/
def System.Inside (system : System) : Thread → Prop
  | .receiver => system.receiver ≠ .recvfrom ∧ system.receiver ≠ .lock
  | .updater => system.updater ≠ .lock ∧ system.updater ≠ .ended
  | .sender thread => system.senders thread = .send ∨ system.senders thread = .finish

/-- Nobody who has finished owns the lock. -/
structure HandedBack (system : System) : Prop where
  sent : ∀ thread, system.senders thread = .returned →
    system.kcpThreadLock ≠ some (.sender thread)
  updated : system.updater = .ended → system.kcpThreadLock ≠ some .updater
  received : system.receiver = .recvfrom → system.kcpThreadLock ≠ some .receiver
  inside : ∀ thread, system.kcpThreadLock = some thread → system.Inside thread

/-- At all times of a run, nobody who has finished owns the lock. -/
def LockHandedBack (actions : List Action) : Prop :=
  ∀ earlier, earlier <+: actions → HandedBack (after earlier)

/-- The step is not the return of a call of `sendKcpData`, nor the end of an
iteration of `handle_update`. -/
def Unfinished (system : System) : Action → Prop
  | .receiver _ => True
  | .updater => system.updater ≠ .init ∧ (system.updater = .test → system.session.expired = true)
  | .sender thread => system.senders thread ≠ .finish

/-- A thread stands where it must have taken the lock and cannot have given it
back. -/
def System.Holds (system : System) : Thread → Prop
  | .receiver => system.receiver ≠ .recvfrom ∧ system.receiver ≠ .lock
  | .updater => system.updater ≠ .lock
  | .sender thread => system.senders thread ≠ .outside ∧ system.senders thread ≠ .lock

/-- Who stands so owns the lock. -/
def Owned (system : System) : Prop :=
  ∀ thread, system.Holds thread → system.kcpThreadLock = some thread

/-- What a step of a thread does to the lock: nothing, take it, or give it back,
and that is done by the receiver only. -/
inductive Moves (before next : System) (thread : Thread) (unfinished : Prop) : Prop
  | kept (owner : next.kcpThreadLock = before.kcpThreadLock)
      (held : next.Holds thread → before.Holds thread)
      (stays : unfinished → before.Inside thread → next.Inside thread)
  | taken (free : before.kcpThreadLock = none) (owner : next.kcpThreadLock = some thread)
      (entered : next.Inside thread)
  | handedBack (who : thread = .receiver) (owner : next.kcpThreadLock = none)
      (held : before.Holds thread) (left : ¬ next.Holds thread)

/-- The statements of `udp_msg_sender`: the unlock is one of them. -/
theorem receiver_moves (system : System) (hr : Int) :
    Moves system (receiverStep system hr) .receiver True := by
  cases place : system.receiver <;> simp only [receiverStep, place]
  case recvfrom =>
    split <;> refine .kept rfl ?_ ?_ <;> simp [System.Holds, System.Inside, place]
  case lock =>
    split
    case isTrue free => exact .taken free rfl (by simp [System.Inside])
    case isFalse => exact .kept rfl id fun _ => id
  case input => refine .kept rfl ?_ ?_ <;> simp [System.Holds, System.Inside, place]
  case recv => split <;> refine .kept rfl ?_ ?_ <;> simp [System.Holds, System.Inside, place]
  case unlock => exact .handedBack rfl rfl (by simp [System.Holds, place]) (by simp [System.Holds])

/-- The statements of `handle_update`: no one of them gives the lock back. -/
theorem updater_moves (system : System) :
    Moves system (updaterStep system) .updater (Unfinished system .updater) := by
  cases place : system.updater <;> simp only [updaterStep, place]
  case lock =>
    split
    case isTrue free => exact .taken free rfl (by simp [System.Inside])
    case isFalse => exact .kept rfl id fun _ => id
  all_goals refine .kept rfl ?_ ?_ <;> simp +contextual [System.Holds, System.Inside, Unfinished, place]

/-- The statements of `sendKcpData`: no one of them gives the lock back. -/
theorem sender_moves (system : System) (thread : Nat) :
    Moves system (senderStep system thread) (.sender thread)
      (Unfinished system (.sender thread)) := by
  cases place : system.senders thread <;> simp only [senderStep, place]
  case lock =>
    split
    case isTrue free => exact .taken free rfl (by simp [System.Inside, System.senderAt])
    case isFalse => exact .kept rfl id fun _ => id
  all_goals
    refine .kept rfl ?_ ?_ <;>
      simp [System.Holds, System.Inside, System.senderAt, Unfinished, place]

/-- Every step does one of these to the lock. -/
theorem step_moves (system : System) (action : Action) :
    Moves system (step system action) action.thread (Unfinished system action) := by
  cases action with
  | receiver hr => exact receiver_moves system hr
  | updater => exact updater_moves system
  | sender thread => exact sender_moves system thread

/-- The receiver moves no other thread. -/
theorem receiver_frame (system : System) (hr : Int) :
    (receiverStep system hr).updater = system.updater ∧
      (receiverStep system hr).senders = system.senders := by
  unfold receiverStep
  split <;> (try split) <;> exact ⟨rfl, rfl⟩

/-- The updater moves no other thread. -/
theorem updater_frame (system : System) :
    (updaterStep system).receiver = system.receiver ∧
      (updaterStep system).senders = system.senders := by
  unfold updaterStep
  split <;> (try split) <;> exact ⟨rfl, rfl⟩

/-- A sender moves no other thread. -/
theorem sender_frame (system : System) (thread : Nat) :
    (senderStep system thread).receiver = system.receiver ∧
      (senderStep system thread).updater = system.updater ∧
      ∀ other, other ≠ thread → (senderStep system thread).senders other = system.senders other := by
  have moved (place : Sender) (other : Nat) (distinct : other ≠ thread) :
      (system.senderAt thread place).senders other = system.senders other := by
    simp only [System.senderAt, Function.update_of_ne distinct]
  unfold senderStep
  split
  · exact ⟨rfl, rfl, moved .lock⟩
  · exact ⟨rfl, rfl, moved .lock⟩
  · split
    · exact ⟨rfl, rfl, moved .send⟩
    · exact ⟨rfl, rfl, fun _ _ => rfl⟩
  · exact ⟨rfl, rfl, moved .finish⟩
  · exact ⟨rfl, rfl, moved .returned⟩

/-- A step leaves the places of the other threads. -/
theorem step_others (system : System) (action : Action) (other : Thread)
    (distinct : other ≠ action.thread) :
    ((step system action).Holds other ↔ system.Holds other) ∧
      ((step system action).Inside other ↔ system.Inside other) := by
  cases action with
  | receiver hr =>
    obtain ⟨updater, senders⟩ := receiver_frame system hr
    cases other with
    | receiver => exact absurd rfl distinct
    | updater => simp only [System.Holds, System.Inside, step, updater, and_self]
    | sender another => simp only [System.Holds, System.Inside, step, senders, and_self]
  | updater =>
    obtain ⟨receiver, senders⟩ := updater_frame system
    cases other with
    | receiver => simp only [System.Holds, System.Inside, step, receiver, and_self]
    | updater => exact absurd rfl distinct
    | sender another => simp only [System.Holds, System.Inside, step, senders, and_self]
  | sender thread =>
    obtain ⟨receiver, updater, senders⟩ := sender_frame system thread
    cases other with
    | receiver => simp only [System.Holds, System.Inside, step, receiver, and_self]
    | updater => simp only [System.Holds, System.Inside, step, updater, and_self]
    | sender another =>
      have apart : another ≠ thread := fun same => distinct (congrArg Thread.sender same)
      simp only [System.Holds, System.Inside, step, senders another apart, and_self]

/-- At first nobody has the lock. -/
theorem init_owned : Owned System.init := by
  intro thread held
  cases thread <;> simp [System.Holds, System.init] at held

/-- Every step keeps the owner right, finished or not. -/
theorem step_owned (system : System) (action : Action) (owned : Owned system) :
    Owned (step system action) := by
  intro thread held
  by_cases own : thread = action.thread
  · subst own
    cases step_moves system action with
    | kept owner back _ => rw [owner, owned _ (back held)]
    | taken _ owner _ => exact owner
    | handedBack _ _ _ left => exact absurd held left
  · have before := owned thread ((step_others system action thread own).1.mp held)
    cases step_moves system action with
    | kept owner _ _ => rw [owner, before]
    | taken free _ _ =>
      rw [free] at before
      cases before
    | handedBack _ _ was _ =>
      -- two holders at once
      rw [owned _ was] at before
      exact absurd (Option.some.inj before).symm own

/-- After every run, who stands inside owns the lock. -/
theorem after_owned (actions : List Action) : Owned (after actions) := by
  induction actions using List.reverseRecOn with
  | nil => exact init_owned
  | append_singleton earlier action inductionHypothesis =>
    rw [after_snoc]
    exact step_owned _ action inductionHypothesis

/-- Once `handle_update` or a call of `sendKcpData` has the lock, nobody else ever
gets it. -/
theorem never_released (actions later : List Action) (thread : Thread)
    (owns : (after actions).kcpThreadLock = some thread) (other : thread ≠ .receiver) :
    (after (actions ++ later)).kcpThreadLock = some thread := by
  induction later using List.reverseRecOn with
  | nil => rw [List.append_nil, owns]
  | append_singleton shorter action inductionHypothesis =>
    rw [← List.append_assoc, after_snoc]
    cases step_moves (after (actions ++ shorter)) action with
    | kept owner _ _ => rw [owner, inductionHypothesis]
    | taken free _ _ =>
      rw [free] at inductionHypothesis
      cases inductionHypothesis
    | handedBack who _ held _ =>
      have holder := after_owned (actions ++ shorter) _ held
      rw [inductionHypothesis, who] at holder
      exact absurd (Option.some.inj holder) other

/-- Only a thread in its operation owns the lock. -/
def OwnerInside (system : System) : Prop :=
  ∀ thread, system.kcpThreadLock = some thread → system.Inside thread

/-- A step that finishes nothing leaves no lock behind. -/
theorem step_owner_inside (system : System) (action : Action) (inside : OwnerInside system)
    (unfinished : Unfinished system action) : OwnerInside (step system action) := by
  intro thread owns
  by_cases own : thread = action.thread
  · subst own
    cases step_moves system action with
    | kept owner _ stays =>
      rw [owner] at owns
      exact stays unfinished (inside _ owns)
    | taken _ _ entered => exact entered
    | handedBack _ owner _ _ =>
      rw [owner] at owns
      cases owns
  · refine (step_others system action thread own).2.mpr ?_
    cases step_moves system action with
    | kept owner _ _ =>
      rw [owner] at owns
      exact inside thread owns
    | taken _ owner _ =>
      rw [owner] at owns
      exact absurd (Option.some.inj owns).symm own
    | handedBack _ owner _ _ =>
      rw [owner] at owns
      cases owns

/-- A thread that has finished is not in its operation. -/
theorem handed_back_of_inside (system : System) (inside : OwnerInside system) :
    HandedBack system where
  sent thread returned owns := by
    have place := inside _ owns
    simp [System.Inside, returned] at place
  updated ended owns := (inside _ owns).2 ended
  received waiting owns := (inside _ owns).1 waiting
  inside := inside

/-- Who finishes an iteration or a call keeps the lock. -/
theorem finish_keeps (system : System) (action : Action) (owned : Owned system)
    (last : ¬ Unfinished system action) : ¬ OwnerInside (step system action) := by
  intro inside
  cases action with
  | receiver hr => exact last trivial
  | updater =>
    have place : system.updater = .init ∨ system.updater = .test ∧ system.session.expired = false := by
      simpa [Unfinished, imp_iff_or_not, or_comm] using last
    have owns := owned .updater (by
      rcases place with init | ⟨test, _⟩
      · simp [System.Holds, init]
      · simp [System.Holds, test])
    have finished : (updaterStep system).updater = .ended ∧
        (updaterStep system).kcpThreadLock = system.kcpThreadLock := by
      rcases place with init | ⟨test, young⟩
      · simp [updaterStep, init]
      · simp [updaterStep, test, young]
    exact (inside .updater (finished.2.trans owns)).2 finished.1
  | sender thread =>
    have place : system.senders thread = .finish := not_not.mp last
    have owns := owned (.sender thread) (by simp [System.Holds, place])
    have finished : senderStep system thread = system.senderAt thread .returned := by
      simp [senderStep, place]
    have within := inside (.sender thread) (by simpa [step, finished, System.senderAt] using owns)
    simp [step, finished, System.Inside, System.senderAt] at within

/-- The lock is always handed back exactly in the runs in which no call of
`sendKcpData` returns and no iteration of `handle_update` ends: only the handling
of datagrams gives it back. -/
theorem lock_handed_back_iff (actions : List Action) :
    LockHandedBack actions ↔ Runs.Meets (Runs.total step) Unfinished System.init actions := by
  rw [Runs.meets_total]
  change LockHandedBack actions ↔
    ∀ earlier action, earlier ++ [action] <+: actions → Unfinished (after earlier) action
  constructor
  · intro handedBack earlier action within
    by_contra last
    have inside := (handedBack (earlier ++ [action]) within).inside
    rw [after_snoc] at inside
    exact finish_keeps _ action (after_owned earlier) last inside
  · intro unfinished earlier within
    have start : OwnerInside System.init := by
      intro thread owns
      cases owns
    have inside : OwnerInside (after earlier) :=
      Runs.total_invariant Unfinished OwnerInside step_owner_inside System.init actions start
        (fun shorter action inside _ => unfinished shorter action inside) earlier within
    exact handed_back_of_inside _ inside

/-- One call of `sendKcpData`, or one iteration of `handle_update`, is enough to
leave the lock behind. -/
theorem lock_left_behind :
    ¬ LockHandedBack [.sender 0, .sender 0, .sender 0, .sender 0] ∧
      ¬ LockHandedBack [.updater, .updater, .updater, .updater] := by
  constructor
  · intro handedBack
    exact (handedBack _ (List.prefix_refl _)).sent 0 rfl rfl
  · intro handedBack
    exact (handedBack _ (List.prefix_refl _)).updated (by decide) rfl

end IotCamera.Kcp.Locking
