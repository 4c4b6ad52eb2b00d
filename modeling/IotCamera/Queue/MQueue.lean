import IotCamera.Base.Places
import IotCamera.Base.Runs

/-!
# The bounded blocking queue

`MQUEUE` of `mqueue.h`, and `EventLoop` of `eventloop.h` with the same body: a
queue of at most `cap` values under one mutex, with a condition variable for
each side. `PushData` and `PopData` have one shape. Under the mutex a call waits
on its own condition while it finds the queue full (or empty), notifying the
other side before each wait; then it moves its value, notifies the other side
and unlocks.

Each statement is one atomic step and any number of threads take steps in any
order. A wait releases the mutex and blocks in one step. A signal moves one
blocked thread of that condition, whichever the scheduler picks, and none only
when none is blocked; a signalled thread has still to get the mutex back. A
blocked thread may also wake without a signal. Waiting for the mutex is a step
that changes nothing while another thread holds it.
-/

namespace IotCamera.MQueue

universe u
variable {α : Type u}

/-- The sides of the queue; each has a condition variable, `full` for the
producers and `empty` for the consumers. -/
inductive Side where
  | product
  | consume
  deriving DecidableEq, Repr

def Side.other : Side → Side
  | .product => .consume
  | .consume => .product

inductive Call (α : Type u) where
  | pushData (data : α)
  | popData
  deriving DecidableEq, Repr

def Call.side : Call α → Side
  | .pushData _ => .product
  | .popData => .consume

/-- The statement a call comes to next. The last three before `transfer` are
inside the wait: blocked on the condition, signalled there, or awake without a
signal, the latter two on the way to the mutex. -/
inductive Stage where
  | lockQueue
  | test
  | notifyBeforeWait
  | wait
  | blocked
  | signalled
  | woken
  | transfer
  | notify
  | unlockQueue
  deriving DecidableEq, Repr

/-- Where a thread stands between two steps. -/
inductive Place (α : Type u) where
  | idle
  | inside (call : Call α) (stage : Stage)
  deriving DecidableEq, Repr

/-- The queue, its mutex with the thread that holds it, the threads, and the
values in the order they were pushed and popped. -/
structure System (α : Type u) where
  q : List α
  mutex : Option Nat
  threads : List (Place α)
  pushed : List α
  popped : List α
  deriving DecidableEq, Repr

/-- An empty queue and idle threads. -/
def System.init (threads : Nat) : System α := ⟨[], none, List.replicate threads .idle, [], []⟩

/-- A step of one thread. `chosen` is the thread that a signal would wake. -/
inductive Action (α : Type u) where
  | call (thread : Nat) (call : Call α)
  | proceed (thread chosen : Nat)
  | wake (thread : Nat)
  deriving DecidableEq, Repr

/-- Reading the front of an empty queue. -/
inductive Fault where
  | emptyFront
  deriving DecidableEq, Repr

def isEmpty (q : List α) : Bool := q.length == 0

def isFull (cap : Nat) (q : List α) : Bool := q.length == cap

/-- The test of the waiting loop: producers wait while the queue is full,
consumers while it is empty. -/
def mustWait (cap : Nat) (q : List α) : Side → Bool
  | .product => isFull cap q
  | .consume => isEmpty q

/-- Whether a thread is blocked on a side's condition without a signal. -/
def Place.blockedOn (side : Side) : Place α → Bool
  | .inside call .blocked => call.side == side
  | _ => false

/-- Whether a thread was signalled on a side's condition and has not got the
mutex back yet. -/
def Place.signalledOn (side : Side) : Place α → Bool
  | .inside call .signalled => call.side == side
  | _ => false

/-- `pthread_cond_signal` on a side's condition. The choice is refused when the
chosen thread is not blocked there and some other thread is. -/
def signal (threads : List (Place α)) (side : Side) (chosen : Nat) : Option (List (Place α)) :=
  if threads.any (Place.blockedOn side) then
    match threads[chosen]? with
    | some (.inside call .blocked) =>
      if call.side = side then some (threads.set chosen (.inside call .signalled)) else none
    | _ => none
  else some threads

/-- Move one thread. -/
def System.at (system : System α) (thread : Nat) (place : Place α) : System α :=
  { system with threads := system.threads.set thread place }

/-- The next statement of a call. `NotifyConsume` and `NotifyProduct` signal the
other side. -/
def advance (cap : Nat) (system : System α) (thread : Nat) (call : Call α) (chosen : Nat) :
    Stage → Except (Fault × System α) (System α)
  | .lockQueue | .signalled | .woken =>
    if system.mutex = none then
      .ok { system.at thread (.inside call .test) with mutex := some thread }
    else .ok system
  | .test =>
    if mustWait cap system.q call.side then .ok (system.at thread (.inside call .notifyBeforeWait))
    else .ok (system.at thread (.inside call .transfer))
  | .notifyBeforeWait =>
    match signal system.threads call.side.other chosen with
    | none => .ok system
    | some threads => .ok ({ system with threads := threads }.at thread (.inside call .wait))
  | .wait => .ok { system.at thread (.inside call .blocked) with mutex := none }
  | .blocked => .ok system
  | .transfer =>
    match call, system.q with
    | .pushData data, q =>
      .ok { system.at thread (.inside call .notify) with
        q := q ++ [data]
        pushed := system.pushed ++ [data] }
    | .popData, front :: rest =>
      .ok { system.at thread (.inside call .notify) with
        q := rest
        popped := system.popped ++ [front] }
    | .popData, [] => .error (.emptyFront, system)
  | .notify =>
    match signal system.threads call.side.other chosen with
    | none => .ok system
    | some threads => .ok ({ system with threads := threads }.at thread (.inside call .unlockQueue))
  | .unlockQueue => .ok { system.at thread .idle with mutex := none }

/-- Take a step. A step that its thread cannot take is passed over. -/
def step (cap : Nat) (system : System α) : Action α → Except (Fault × System α) (System α)
  | .call thread call =>
    match system.threads[thread]? with
    | some .idle => .ok (system.at thread (.inside call .lockQueue))
    | _ => .ok system
  | .proceed thread chosen =>
    match system.threads[thread]? with
    | some (.inside call stage) => advance cap system thread call chosen stage
    | _ => .ok system
  | .wake thread =>
    match system.threads[thread]? with
    | some (.inside call .blocked) => .ok (system.at thread (.inside call .woken))
    | _ => .ok system

end IotCamera.MQueue
