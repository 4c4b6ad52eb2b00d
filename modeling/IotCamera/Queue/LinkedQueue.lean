import IotCamera.Base.Chains

/-!
# The linked queue

`queue.c`: a queue of frames as a chain of allocated nodes with pointers to both
ends and a size. The three fields must agree: the front leads through exactly
`size` nodes to the null pointer, and the rear is the last of them. The sections
that the source runs under its mutex are given here as functions of the heap and
the queue; which node a dequeuing section frees is decided by a pointer read
before the mutex was taken, so that pointer is an argument.

The size is an `int`; a process has no room for two to the thirty-one nodes, so
it is an integer here.
-/

namespace IotCamera.LinkedQueue

open Chains

abbrev Frame := BitVec 32

structure Queue where
  front : Option Nat
  rear : Option Nat
  size : Int
  deriving DecidableEq, Repr

/-- An empty queue. -/
def initQueue : Queue := ⟨none, none, 0⟩

/-- Whether all three fields say that the queue is empty. -/
def isEmpty (pqueue : Queue) : Bool :=
  pqueue.front = none ∧ pqueue.rear = none ∧ pqueue.size = 0

/-- The locked section of `EnQueue`: link an initialised node behind the rear. -/
def enQueueLocked (heap : Heap Frame) (pqueue : Queue) (pnode : Nat) :
    Except Fault (Heap Frame × Queue) :=
  if isEmpty pqueue then .ok (heap, ⟨some pnode, some pnode, pqueue.size + 1⟩)
  else
    match heap.setNext pqueue.rear (some pnode) with
    | .error fault => .error fault
    | .ok heap => .ok (heap, ⟨pqueue.front, some pnode, pqueue.size + 1⟩)

/-- The locked section of `DeQueue`: unless the queue is empty, make the node
behind `pnode` the front and free `pnode`. The answer is the removed frame. -/
def deQueueLocked (heap : Heap Frame) (pqueue : Queue) (pnode : Option Nat) :
    Except Fault (Heap Frame × Queue × Option Frame) :=
  if isEmpty pqueue then .ok (heap, pqueue, none)
  else
    match heap.load pnode with
    | .error fault => .error fault
    | .ok node =>
      match heap.free pnode with
      | .error fault => .error fault
      | .ok heap =>
        let size := pqueue.size - 1
        .ok (heap, ⟨node.next, if size = 0 then none else pqueue.rear, size⟩, some node.value)

/-- The queue holds exactly these nodes. -/
structure Represents (heap : Heap Frame) (pqueue : Queue) (nodes : List Nat) : Prop where
  chain : Chain heap pqueue.front nodes
  rear : pqueue.rear = nodes.getLast?
  size : pqueue.size = nodes.length

/-- A new queue represents no frames. -/
theorem init_represents (heap : Heap Frame) : Represents heap initQueue [] := ⟨rfl, rfl, rfl⟩

/-- The queue depends on its own nodes alone. -/
theorem represents_congr (heap heap' : Heap Frame) (pqueue : Queue) (nodes : List Nat)
    (same : ∀ node ∈ nodes, heap' node = heap node) (holds : Represents heap pqueue nodes) :
    Represents heap' pqueue nodes :=
  ⟨chain_congr heap heap' pqueue.front nodes same holds.chain, holds.rear, holds.size⟩

/-- The fields of a queue agree on whether it is empty. -/
theorem is_empty_iff (heap : Heap Frame) (pqueue : Queue) (nodes : List Nat)
    (holds : Represents heap pqueue nodes) : isEmpty pqueue = true ↔ nodes = [] := by
  obtain ⟨front, rear, size⟩ := pqueue
  obtain ⟨chain, last, length⟩ := holds
  simp only [isEmpty, decide_eq_true_eq]
  constructor
  · rintro ⟨_, _, none⟩
    simp only at length none
    exact List.eq_nil_of_length_eq_zero (by omega)
  · rintro rfl
    exact ⟨chain, last, by simpa using length⟩

/-- Enqueuing an initialised node outside the queue succeeds and puts it last. No
node outside the queue is touched. -/
theorem en_queue_represents (heap : Heap Frame) (pqueue : Queue) (nodes : List Nat)
    (holds : Represents heap pqueue nodes) (pnode : Nat) (frame : Frame)
    (outside : pnode ∉ nodes) (held : heap pnode = some ⟨frame, none⟩) :
    ∃ heap' pqueue', enQueueLocked heap pqueue pnode = .ok (heap', pqueue') ∧
      Represents heap' pqueue' (nodes ++ [pnode]) ∧
      values heap' (nodes ++ [pnode]) = values heap nodes ++ [frame] ∧
      ∀ other, other ∉ nodes → heap' other = heap other := by
  have empty := is_empty_iff heap pqueue nodes holds
  obtain ⟨chain, last, length⟩ := holds
  rcases List.eq_nil_or_concat nodes with none | ⟨front, rear, shape⟩
  · subst none
    refine ⟨heap, _, by rw [enQueueLocked, if_pos (empty.mpr rfl)], ⟨?_, rfl, ?_⟩, ?_, fun _ _ => rfl⟩
    · exact ⟨rfl, by simp, _, held, rfl⟩
    · simp [length]
    · simp [values, held]
  · rw [List.concat_eq_append] at shape
    subst shape
    have apart : pnode ≠ rear := by
      rintro rfl
      exact outside (by simp)
    obtain ⟨cell, found, linked⟩ := chain_link heap pqueue.front front rear pnode frame chain
      (fun member => outside (List.mem_append_left _ member)) apart held
    set heap' := heap.update rear (some { cell with next := some pnode }) with updated
    have rearField : pqueue.rear = some rear := by simpa using last
    have notEmpty : ¬ isEmpty pqueue = true := fun vacant => by simpa using empty.mp vacant
    have same : ∀ other, other ≠ rear → heap' other = heap other :=
      fun other different => update_other heap rear other _ different
    refine ⟨heap', ⟨pqueue.front, some pnode, pqueue.size + 1⟩, ?_, ⟨?_, by simp, ?_⟩, ?_, ?_⟩
    · rw [enQueueLocked, if_neg notEmpty]
      simp only [Heap.setNext, rearField, found, updated]
    · simpa using linked
    · simp only [length, List.length_append, List.length_singleton]
      omega
    · rw [values_append heap', values_congr heap heap' (front ++ [rear])
        fun other _ => update_next_value heap rear cell (some pnode) found other]
      simp [values, same pnode apart, held]
    · intro other member
      exact same other (fun equal => member (by simp [equal]))

/-- Dequeuing with the front of a queue that is not empty removes and frees that
node and no other. -/
theorem de_queue_represents (heap : Heap Frame) (pqueue : Queue) (node : Nat) (rest : List Nat)
    (holds : Represents heap pqueue (node :: rest)) :
    ∃ cell pqueue', heap node = some cell ∧
      deQueueLocked heap pqueue pqueue.front =
        .ok (heap.update node none, pqueue', some cell.value) ∧
      Represents (heap.update node none) pqueue' rest ∧ pqueue'.front = cell.next ∧
      pqueue'.size = pqueue.size - 1 ∧
      values heap (node :: rest) = cell.value :: values (heap.update node none) rest := by
  have notEmpty : ¬ isEmpty pqueue = true :=
    fun vacant => by simpa using (is_empty_iff heap pqueue _ holds).mp vacant
  obtain ⟨chain, last, length⟩ := holds
  obtain ⟨cell, found, following, frames⟩ := chain_free heap pqueue.front node rest chain
  have front : pqueue.front = some node := chain.1
  refine ⟨cell, ⟨cell.next, if pqueue.size - 1 = 0 then none else pqueue.rear, pqueue.size - 1⟩,
    found, ?_, ⟨following, ?_, ?_⟩, rfl, rfl, frames⟩
  · rw [deQueueLocked, if_neg notEmpty, front]
    simp only [Heap.load, Heap.free, found]
  · cases rest with
    | nil => simp [length]
    | cons second rest =>
      have more : pqueue.size - 1 ≠ 0 := by
        simp only [length, List.length_cons]
        omega
      simp only [more, ↓reduceIte, last, List.getLast?_cons_cons]
  · simp [length]

end IotCamera.LinkedQueue
