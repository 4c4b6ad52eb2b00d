import IotCamera.Base.Runs
import IotCamera.Queue.LinkedQueue

/-!
# The linked queue of a single thread

Whole calls of `queue.c`, made one after the other by one thread, so that no call finds
the mutex taken and the front that `DeQueue` reads is still the front when it uses it.
`malloc` returns an address that is not in use, or null; which one is an argument of the
call. `ClearQueue` dequeues until the queue says that it is empty: a loop that has not
ended after a given number of passes is cut off, which is told apart from an end.

The frames along the chain are compared with a list, on which enqueuing appends and
dequeuing drops the first element.
-/

namespace IotCamera.Fifo

open Chains LinkedQueue

/-- `EnQueue`, with what `malloc` returned. It returns the new node. -/
def enQueue (heap : Heap Frame) (pqueue : Queue) (frame : Frame) (pnode : Option Nat) :
    Except Fault (Heap Frame × Queue × Option Nat) :=
  match pnode with
  | none => .ok (heap, pqueue, none)
  | some node =>
    (enQueueLocked (heap.update node (some ⟨frame, none⟩)) pqueue node).map
      fun (heap, pqueue) => (heap, pqueue, some node)

/-- `DeQueue`. It returns the new front. -/
def deQueue (heap : Heap Frame) (pqueue : Queue) : Except Fault (Heap Frame × Queue × Option Nat) :=
  (deQueueLocked heap pqueue pqueue.front).map fun (heap, pqueue, _) => (heap, pqueue, pqueue.front)

/-- `GetRear`: the variable that the frame is stored in, and the node. -/
def getRear (heap : Heap Frame) (pqueue : Queue) (frame : Frame) :
    Except Fault (Frame × Option Nat) :=
  if isEmpty pqueue then .ok (frame, pqueue.rear)
  else (heap.load pqueue.rear).map fun node => (node.value, pqueue.rear)

/-- Why a call has not returned. -/
inductive Stop where
  | faults (fault : Fault)
  | goesOn
  deriving DecidableEq, Repr

/-- At most `passes` passes of the loop of `ClearQueue`. -/
def clearQueue : Nat → Heap Frame → Queue → Except Stop (Heap Frame × Queue)
  | 0, _, _ => .error .goesOn
  | passes + 1, heap, pqueue =>
    if isEmpty pqueue then .ok (heap, pqueue)
    else
      match deQueue heap pqueue with
      | .error fault => .error (.faults fault)
      | .ok (heap, pqueue, _) => clearQueue passes heap pqueue

/-- The frames that the loop of `QueueTraverse` visits in `i` passes. -/
def traverse (heap : Heap Frame) : Nat → Option Nat → Except Fault (List Frame)
  | 0, _ => .ok []
  | i + 1, pnode =>
    match heap.load pnode with
    | .error fault => .error fault
    | .ok node => (traverse heap i node.next).map (node.value :: ·)

/-- `QueueTraverse`. A negative size would be counted down without an end. -/
def queueTraverse (heap : Heap Frame) (pqueue : Queue) : Except Stop (List Frame) :=
  if pqueue.size < 0 then .error .goesOn
  else (traverse heap pqueue.size.toNat pqueue.front).mapError .faults

/-- The memory, the queue, and the variable that `GetRear` stores into. -/
structure Thread where
  heap : Heap Frame
  pqueue : Queue
  frame : Frame

inductive Operation where
  | enQueue (frame : Frame) (pnode : Option Nat)
  | deQueue
  | clearQueue
  | getRear
  deriving DecidableEq, Repr

/-- One call. The loop of `ClearQueue` may take one pass more than the queue has nodes. -/
def Thread.step (thread : Thread) : Operation → Except (Stop × Thread) Thread
  | .enQueue frame pnode =>
    match Fifo.enQueue thread.heap thread.pqueue frame pnode with
    | .ok (heap, pqueue, _) => .ok { thread with heap, pqueue }
    | .error fault => .error (.faults fault, thread)
  | .deQueue =>
    match Fifo.deQueue thread.heap thread.pqueue with
    | .ok (heap, pqueue, _) => .ok { thread with heap, pqueue }
    | .error fault => .error (.faults fault, thread)
  | .clearQueue =>
    match Fifo.clearQueue (thread.pqueue.size.toNat + 1) thread.heap thread.pqueue with
    | .ok (heap, pqueue) => .ok { thread with heap, pqueue }
    | .error stop => .error (stop, thread)
  | .getRear =>
    match Fifo.getRear thread.heap thread.pqueue thread.frame with
    | .ok (frame, _) => .ok { thread with frame }
    | .error fault => .error (.faults fault, thread)

/-- `malloc` returns no address that is in use. -/
def Allocates (thread : Thread) : Operation → Prop
  | .enQueue _ (some pnode) => thread.heap pnode = none
  | _ => True

instance (thread : Thread) : (operation : Operation) → Decidable (Allocates thread operation)
  | .enQueue _ (some pnode) => inferInstanceAs (Decidable (thread.heap pnode = none))
  | .enQueue _ none => isTrue trivial
  | .deQueue => isTrue trivial
  | .clearQueue => isTrue trivial
  | .getRear => isTrue trivial

/-- What a call does to a list. -/
def fifo (frames : List Frame) : Operation → List Frame
  | .enQueue frame (some _) => frames ++ [frame]
  | .enQueue _ none => frames
  | .deQueue => frames.tail
  | .clearQueue => []
  | .getRear => frames

/-- The queue is a chain of nodes with these frames. -/
def Holds (heap : Heap Frame) (pqueue : Queue) (frames : List Frame) : Prop :=
  ∃ nodes, Represents heap pqueue nodes ∧ values heap nodes = frames

/-- A queue whose fields say that it is empty is as `InitQueue` leaves it. -/
theorem empty_is_init (pqueue : Queue) (empty : isEmpty pqueue = true) : pqueue = initQueue := by
  obtain ⟨front, rear, size⟩ := pqueue
  obtain ⟨rfl, rfl, rfl⟩ := of_decide_eq_true empty
  rfl

/-- The loop of `QueueTraverse` visits the values of a chain as long as its passes. -/
theorem traverse_chain (heap : Heap Frame) (pnode : Option Nat) (nodes : List Nat)
    (chain : Chain heap pnode nodes) :
    traverse heap nodes.length pnode = .ok (values heap nodes) := by
  induction nodes generalizing pnode with
  | nil => rfl
  | cons node rest inductionHypothesis =>
    obtain ⟨rfl, _, cell, held, following⟩ := chain
    have loaded : heap.load (some node) = .ok cell := by
      simp only [Heap.load, held]
    rw [List.length_cons, traverse, loaded]
    simp only [inductionHypothesis cell.next following, Except.map]
    rw [values_cons heap node rest cell held]

section Calls
variable (heap : Heap Frame) (pqueue : Queue) (frames : List Frame) (holds : Holds heap pqueue frames)

include holds

/-- The size of a queue is the number of its frames. -/
theorem holds_size : pqueue.size = frames.length := by
  obtain ⟨nodes, represents, rfl⟩ := holds
  rw [represents.size, chain_values_length heap pqueue.front nodes represents.chain]

/-- The fields of a queue that holds frames agree on whether there are any. -/
theorem holds_empty_iff : isEmpty pqueue = true ↔ frames = [] := by
  have size := holds_size heap pqueue frames holds
  obtain ⟨nodes, represents, rfl⟩ := holds
  rw [is_empty_iff heap pqueue nodes represents]
  constructor
  · rintro rfl
    rfl
  · intro none
    rw [none] at size
    rw [represents.size] at size
    exact List.eq_nil_of_length_eq_zero (by simpa using size)

/-- A frame that is put in is the last one. -/
theorem en_queue_holds (frame : Frame) (pnode : Nat) (free : heap pnode = none) :
    ∃ heap' pqueue', enQueue heap pqueue frame (some pnode) = .ok (heap', pqueue', some pnode) ∧
      Holds heap' pqueue' (frames ++ [frame]) := by
  obtain ⟨nodes, represents, rfl⟩ := holds
  have outside : pnode ∉ nodes := by
    intro member
    obtain ⟨cell, held⟩ := chain_member heap pqueue.front nodes represents.chain pnode member
    rw [free] at held
    cases held
  have same : ∀ node ∈ nodes, heap.update pnode (some ⟨frame, none⟩) node = heap node :=
    fun node member => update_other heap pnode node _ (fun equal => outside (equal ▸ member))
  have initialised := represents_congr heap _ pqueue nodes same represents
  obtain ⟨heap', pqueue', locked, grown, appended, -⟩ := en_queue_represents _ pqueue nodes
    initialised pnode frame outside (update_same heap pnode _)
  refine ⟨heap', pqueue', by simp only [enQueue, locked, Except.map], nodes ++ [pnode], grown, ?_⟩
  rw [appended, values_congr heap _ nodes
    fun node member => congrArg (Option.map Cell.value) (same node member)]

/-- The first frame is taken out, if there is one. -/
theorem de_queue_holds : ∃ heap' pqueue',
    deQueue heap pqueue = .ok (heap', pqueue', pqueue'.front) ∧ Holds heap' pqueue' frames.tail := by
  obtain ⟨nodes, represents, rfl⟩ := holds
  cases nodes with
  | nil =>
    have empty := (is_empty_iff heap pqueue [] represents).mpr rfl
    refine ⟨heap, pqueue, ?_, [], represents, rfl⟩
    simp only [deQueue, deQueueLocked, if_pos empty, Except.map]
  | cons node rest =>
    obtain ⟨cell, pqueue', -, locked, shrunk, -, -, split⟩ :=
      de_queue_represents heap pqueue node rest represents
    refine ⟨heap.update node none, pqueue', by simp only [deQueue, locked, Except.map], rest, shrunk, ?_⟩
    rw [split, List.tail_cons]

/-- `GetRear` yields the newest frame, if there is one. -/
theorem get_rear_newest (frame : Frame) :
    getRear heap pqueue frame = .ok (frames.getLast?.getD frame, pqueue.rear) := by
  have empty := holds_empty_iff heap pqueue frames holds
  obtain ⟨nodes, represents, rfl⟩ := holds
  rcases List.eq_nil_or_concat nodes with none | ⟨front, rear, shape⟩
  · subst none
    rw [getRear, if_pos (empty.mpr rfl)]
    rfl
  · rw [List.concat_eq_append] at shape
    subst shape
    obtain ⟨cell, held⟩ := chain_member heap pqueue.front _ represents.chain rear (by simp)
    have last : values heap (front ++ [rear]) = values heap front ++ [cell.value] := by
      rw [values_append, values_cons heap rear [] cell held]
      rfl
    have some : ¬ isEmpty pqueue = true := by
      rw [empty, last]
      simp
    have rearField : pqueue.rear = .some rear := by simpa using represents.rear
    rw [getRear, if_neg some, last, List.getLast?_concat]
    simp only [rearField, Heap.load, held, Except.map, Option.getD_some]

/-- `QueueTraverse` visits the frames in order. -/
theorem queue_traverse_visits : queueTraverse heap pqueue = .ok frames := by
  obtain ⟨nodes, represents, rfl⟩ := holds
  have counted : ¬ pqueue.size < 0 := by
    rw [represents.size]
    omega
  have passes : pqueue.size.toNat = nodes.length := by
    rw [represents.size]
    rfl
  rw [queueTraverse, if_neg counted, passes, traverse_chain heap pqueue.front nodes represents.chain]
  rfl

/-- `ClearQueue` ends after a pass for each frame, with the empty queue. -/
theorem clear_queue_ends :
    ∃ heap', ∀ passes, frames.length < passes → clearQueue passes heap pqueue = .ok (heap', initQueue) := by
  induction frames generalizing heap pqueue with
  | nil =>
    have empty := (holds_empty_iff heap pqueue [] holds).mpr rfl
    refine ⟨heap, fun passes some => ?_⟩
    obtain ⟨left, rfl⟩ : ∃ left, passes = left + 1 := ⟨passes - 1, by simp at some; omega⟩
    rw [clearQueue, if_pos empty, empty_is_init pqueue empty]
  | cons frame rest inductionHypothesis =>
    have some : ¬ isEmpty pqueue = true := by
      rw [holds_empty_iff heap pqueue _ holds]
      simp
    obtain ⟨heap', pqueue', removed, following⟩ := de_queue_holds heap pqueue _ holds
    obtain ⟨cleared, ends⟩ := inductionHypothesis heap' pqueue' following
    refine ⟨cleared, fun passes enough => ?_⟩
    obtain ⟨left, rfl⟩ : ∃ left, passes = left + 1 := ⟨passes - 1, by omega⟩
    rw [clearQueue, if_neg some, removed]
    exact ends left (by simpa using enough)

end Calls

/-- Each call returns, and does to the frames what it does to a list. -/
theorem step_fifo (thread : Thread) (frames : List Frame) (operation : Operation)
    (holds : Holds thread.heap thread.pqueue frames) (allocates : Allocates thread operation) :
    ∃ next, thread.step operation = .ok next ∧ Holds next.heap next.pqueue (fifo frames operation) := by
  cases operation with
  | enQueue frame pnode =>
    cases pnode with
    | none => exact ⟨thread, rfl, holds⟩
    | some pnode =>
      obtain ⟨heap, pqueue, added, grown⟩ := en_queue_holds _ _ _ holds frame pnode allocates
      exact ⟨{ thread with heap, pqueue }, by simp only [Thread.step, added], grown⟩
  | deQueue =>
    obtain ⟨heap, pqueue, removed, shrunk⟩ := de_queue_holds _ _ _ holds
    exact ⟨{ thread with heap, pqueue }, by simp only [Thread.step, removed], shrunk⟩
  | clearQueue =>
    have size : thread.pqueue.size.toNat = frames.length := by
      rw [holds_size _ _ _ holds]
      rfl
    obtain ⟨heap, ends⟩ := clear_queue_ends _ _ _ holds
    have cleared := ends (thread.pqueue.size.toNat + 1) (by omega)
    exact ⟨{ thread with heap, pqueue := initQueue }, by simp only [Thread.step, cleared],
      [], init_represents heap, rfl⟩
  | getRear =>
    have newest := get_rear_newest _ _ _ holds thread.frame
    exact ⟨{ thread with frame := frames.getLast?.getD thread.frame },
      by simp only [Thread.step, newest], holds⟩

/-- What the queue is for, in a state between two calls. -/
structure Keeps (thread : Thread) (frames : List Frame) : Prop where
  /-- The front leads through `size` nodes, with the frames in order, to the null pointer;
  the rear is the last of them. -/
  chain : Holds thread.heap thread.pqueue frames
  size : thread.pqueue.size = frames.length
  ends : (thread.pqueue.front = none ∧ thread.pqueue.rear = none) ↔ thread.pqueue.size = 0
  newest : ∀ frame, getRear thread.heap thread.pqueue frame =
    .ok (frames.getLast?.getD frame, thread.pqueue.rear)
  visited : queueTraverse thread.heap thread.pqueue = .ok frames
  cleared : ∃ heap, ∀ passes, frames.length < passes →
    clearQueue passes thread.heap thread.pqueue = .ok (heap, initQueue)

/-- A queue that holds frames keeps them for its thread. -/
theorem holds_keeps (thread : Thread) (frames : List Frame)
    (holds : Holds thread.heap thread.pqueue frames) : Keeps thread frames where
  chain := holds
  size := holds_size _ _ _ holds
  ends := by
    have empty := holds_empty_iff _ _ _ holds
    have size := holds_size _ _ _ holds
    constructor
    · rintro ⟨front, rear⟩
      obtain ⟨nodes, represents, rfl⟩ := holds
      have last := represents.rear
      rw [rear] at last
      rw [represents.size, List.getLast?_eq_none_iff.mp last.symm]
      rfl
    · intro zero
      have none : frames = [] := List.eq_nil_of_length_eq_zero (by omega)
      rw [empty_is_init thread.pqueue (empty.mpr none)]
      exact ⟨rfl, rfl⟩
  newest := get_rear_newest _ _ _ holds
  visited := queue_traverse_visits _ _ _ holds
  cleared := clear_queue_ends _ _ _ holds

/-- After any calls of a single thread on a new queue the chain is as long as the size
says, ends in the rear, and holds the frames of a first-in first-out list; every call
returns. -/
theorem queue_represents_fifo (heap : Heap Frame) (frame : Frame) (operations : List Operation)
    (allocates : Runs.Meets Thread.step Allocates ⟨heap, initQueue, frame⟩ operations) :
    ∃ after, Runs.run Thread.step ⟨heap, initQueue, frame⟩ operations = .ok after ∧
      Keeps after (operations.foldl fifo []) := by
  obtain ⟨after, returned, holds⟩ := Runs.run_simulates Allocates
    (fun thread frames => Holds thread.heap thread.pqueue frames) fifo step_fifo
    ⟨heap, initQueue, frame⟩ [] operations ⟨[], init_represents heap, rfl⟩ allocates
  exact ⟨after, returned, holds_keeps after _ holds⟩

/-- Calls that fill a queue, empty it and fill it again. -/
def severalCalls : List Operation :=
  [.enQueue 7 (some 1), .enQueue 8 (some 2), .getRear, .deQueue, .enQueue 9 (some 1), .enQueue 9 none,
   .clearQueue, .deQueue, .enQueue 5 (some 3)]

/-- Of these calls the last frame is left. -/
theorem queue_represents_fifo_several :
    Runs.Meets Thread.step Allocates ⟨fun _ => none, initQueue, 0⟩ severalCalls ∧
      ∃ after, Runs.run Thread.step ⟨fun _ => none, initQueue, 0⟩ severalCalls = .ok after ∧
        Keeps after [5] := by
  have allocates : Runs.Meets Thread.step Allocates ⟨fun _ => none, initQueue, 0⟩ severalCalls := by
    decide
  exact ⟨allocates, queue_represents_fifo (fun _ => none) 0 severalCalls allocates⟩

end IotCamera.Fifo
