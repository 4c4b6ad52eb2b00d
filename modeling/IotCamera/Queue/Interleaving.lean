import IotCamera.Base.Runs
import IotCamera.Queue.LinkedQueue

/-!
# Threads on one queue

Any number of threads call `EnQueue` and `DeQueue`. An enqueuing thread allocates
and fills its node and then runs its locked section. A dequeuing thread reads the
front, then runs its locked section, and reads the front once more when it
returns. Each of these is one atomic action, and a run is any sequence of them;
an action that its thread is not about to take is passed over. The allocator may
hand out any address that holds no node, also one that was freed before.

The order of the locked sections is the order of the queue: the frames enqueued
and the frames dequeued are recorded there. The section of `DeQueue` trusts the
front that was read outside the lock. A run in which that front is still the
front whenever it is used is linearizable, and no other run is.
-/

namespace IotCamera.LinkedQueue

open Chains

/-- Where a thread stands between two actions. -/
inductive Thread where
  | idle
  | enQueue (pnode : Nat)
  | deQueue (pnode : Option Nat)
  | returning
  deriving DecidableEq, Repr

/-- The shared memory, the threads, and the frames in the order of the locked
sections that enqueued and dequeued them. -/
structure System where
  heap : Heap Frame
  pqueue : Queue
  threads : Nat → Thread
  enqueued : List Frame
  dequeued : List Frame

/-- An empty queue and idle threads. -/
def System.init : System := ⟨fun _ => none, initQueue, fun _ => .idle, [], []⟩

/-- One atomic action of a thread. The address of an allocation is the
allocator's choice, and null when it fails. -/
inductive Action where
  | malloc (thread : Nat) (frame : Frame) (pnode : Option Nat)
  | enQueueLocked (thread : Nat)
  | readFront (thread : Nat)
  | deQueueLocked (thread : Nat)
  | returnFront (thread : Nat)
  deriving DecidableEq, Repr

/-- Move one thread. -/
def System.at (system : System) (thread : Nat) (place : Thread) : System :=
  { system with threads := Function.update system.threads thread place }

/-- The thread that moves stands at its new place. -/
@[simp] theorem at_same (system : System) (thread : Nat) (place : Thread) :
    (system.at thread place).threads thread = place := Function.update_self ..

/-- The others stand where they were. -/
theorem at_other (system : System) (thread other : Nat) (place : Thread)
    (different : other ≠ thread) : (system.at thread place).threads other = system.threads other :=
  Function.update_of_ne different ..

/-- Take an action. A fault stops the system. -/
def step (system : System) : Action → Except (Fault × System) System
  | .malloc thread frame pnode =>
    match system.threads thread, pnode with
    | .idle, some pnode =>
      if system.heap pnode = none then
        .ok { system.at thread (.enQueue pnode) with
          heap := system.heap.update pnode (some ⟨frame, none⟩) }
      else .ok system
    | _, _ => .ok system
  | .enQueueLocked thread =>
    match system.threads thread with
    | .enQueue pnode =>
      match enQueueLocked system.heap system.pqueue pnode with
      | .error fault => .error (fault, system)
      | .ok (heap, pqueue) =>
        .ok { system.at thread .idle with
          heap := heap
          pqueue := pqueue
          enqueued := system.enqueued ++ values system.heap [pnode] }
    | _ => .ok system
  | .readFront thread =>
    match system.threads thread with
    | .idle => .ok (system.at thread (.deQueue system.pqueue.front))
    | _ => .ok system
  | .deQueueLocked thread =>
    match system.threads thread with
    | .deQueue pnode =>
      match deQueueLocked system.heap system.pqueue pnode with
      | .error fault => .error (fault, system)
      | .ok (heap, pqueue, removed) =>
        .ok { system.at thread .returning with
          heap := heap
          pqueue := pqueue
          dequeued := system.dequeued ++ removed.toList }
    | _ => .ok system
  | .returnFront thread =>
    match system.threads thread with
    | .returning => .ok (system.at thread .idle)
    | _ => .ok system

/-- A locked section of `DeQueue` on a queue that is not empty uses the front as
it is now. -/
def Undisturbed (system : System) : Action → Prop
  | .deQueueLocked thread =>
    match system.threads thread with
    | .deQueue pnode => isEmpty system.pqueue = false → pnode = system.pqueue.front
    | _ => True
  | _ => True

/-- From one state to the next, exactly the head node has been removed, and
freed. -/
def RemovesHead (before after : System) : Prop :=
  ∃ node cell, before.pqueue.front = some node ∧ before.heap node = some cell ∧
    after.heap = before.heap.update node none ∧ after.pqueue.front = cell.next ∧
    after.pqueue.size = before.pqueue.size - 1 ∧
    after.dequeued = before.dequeued ++ [cell.value]

/-- At every point of a run: no fault has stopped it, the frames dequeued are the
first of the frames enqueued, and a locked section of `DeQueue` that comes next
and finds a node removes and frees exactly the head. -/
def Linearizable (actions : List Action) : Prop :=
  ∀ earlier, earlier <+: actions →
    ∃ system, Runs.run step System.init earlier = .ok system ∧
      system.dequeued <+: system.enqueued ∧
      ∀ thread pnode, earlier ++ [.deQueueLocked thread] <+: actions →
        system.threads thread = .deQueue pnode → isEmpty system.pqueue = false →
        ∃ after, step system (.deQueueLocked thread) = .ok after ∧ RemovesHead system after

/-- Allocated nodes that wait to be enqueued: filled, outside the queue, and each
belonging to one thread. -/
structure Waiting (system : System) (nodes : List Nat) : Prop where
  filled : ∀ thread pnode, system.threads thread = .enQueue pnode →
    ∃ frame, system.heap pnode = some ⟨frame, none⟩
  outside : ∀ thread pnode, system.threads thread = .enQueue pnode → pnode ∉ nodes
  own : ∀ thread other pnode, system.threads thread = .enQueue pnode →
    system.threads other = .enQueue pnode → thread = other

/-- The queue holds a chain of nodes whose frames are those enqueued and not yet
dequeued. -/
def Invariant (system : System) : Prop :=
  ∃ nodes, Represents system.heap system.pqueue nodes ∧
    system.enqueued = system.dequeued ++ values system.heap nodes ∧ Waiting system nodes

/-- At first no thread is inside. -/
theorem init_invariant : Invariant System.init :=
  ⟨[], init_represents _, rfl, by simp [System.init], by simp [System.init], by simp [System.init]⟩

/-- Moving a thread to a place without a node of its own. -/
theorem moved_thread (system : System) (thread : Nat) (place : Thread)
    (plain : ∀ pnode, place ≠ .enQueue pnode) (other pnode : Nat)
    (stands : (system.at thread place).threads other = .enQueue pnode) :
    other ≠ thread ∧ system.threads other = .enQueue pnode := by
  by_cases same : other = thread
  · subst same
    rw [at_same] at stands
    exact absurd stands (plain pnode)
  · rw [at_other system thread other place same] at stands
    exact ⟨same, stands⟩

/-- Waiting nodes go on waiting when no thread gets a new one and what happens
leaves them alone. -/
theorem waiting_kept (system after : System) (nodes nodes' : List Nat)
    (waiting : Waiting system nodes)
    (kept : ∀ thread pnode, after.threads thread = .enQueue pnode →
      system.threads thread = .enQueue pnode ∧ after.heap pnode = system.heap pnode ∧
        pnode ∉ nodes') : Waiting after nodes' where
  filled := fun thread pnode stands => by
    obtain ⟨before, same, _⟩ := kept thread pnode stands
    rw [same]
    exact waiting.filled thread pnode before
  outside := fun thread pnode stands => (kept thread pnode stands).2.2
  own := fun thread other pnode stands shared =>
    waiting.own thread other pnode (kept thread pnode stands).1 (kept other pnode shared).1

/-- Moving a thread to a place without a node keeps the invariant. -/
theorem moved_invariant (system : System) (thread : Nat) (place : Thread)
    (plain : ∀ pnode, place ≠ .enQueue pnode) (invariant : Invariant system) :
    Invariant (system.at thread place) := by
  obtain ⟨nodes, holds, frames, waiting⟩ := invariant
  refine ⟨nodes, holds, frames, waiting_kept system _ nodes nodes waiting ?_⟩
  intro other pnode stands
  obtain ⟨_, before⟩ := moved_thread system thread place plain other pnode stands
  exact ⟨before, rfl, waiting.outside other pnode before⟩

/-- An allocation takes an address that is neither in the queue nor waiting. -/
theorem malloc_invariant (system : System) (thread pnode : Nat) (frame : Frame)
    (fresh : system.heap pnode = none) (invariant : Invariant system) :
    Invariant { system.at thread (.enQueue pnode) with
      heap := system.heap.update pnode (some ⟨frame, none⟩) } := by
  obtain ⟨nodes, holds, frames, waiting⟩ := invariant
  have outside : pnode ∉ nodes := by
    intro member
    obtain ⟨cell, found⟩ := chain_member _ _ _ holds.chain pnode member
    rw [fresh] at found
    cases found
  have same : ∀ other, other ≠ pnode →
      system.heap.update pnode (some ⟨frame, none⟩) other = system.heap other :=
    fun other different => update_other _ pnode other _ different
  have inside : ∀ node ∈ nodes,
      system.heap.update pnode (some ⟨frame, none⟩) node = system.heap node :=
    fun node member => same node (fun equal => outside (equal ▸ member))
  have stands : ∀ other node,
      (system.at thread (.enQueue pnode)).threads other = .enQueue node →
      other = thread ∧ node = pnode ∨
        other ≠ thread ∧ node ≠ pnode ∧ system.threads other = .enQueue node := by
    intro other node place
    by_cases own : other = thread
    · subst own
      rw [at_same] at place
      exact Or.inl ⟨rfl, (Thread.enQueue.inj place).symm⟩
    · rw [at_other system thread other _ own] at place
      refine Or.inr ⟨own, ?_, place⟩
      rintro rfl
      obtain ⟨_, found⟩ := waiting.filled other node place
      rw [fresh] at found
      cases found
  refine ⟨nodes, represents_congr _ _ _ nodes inside holds, ?_, ?_, ?_, ?_⟩
  · rw [values_congr _ _ nodes fun node member => congrArg (Option.map Cell.value)
      (inside node member)]
    exact frames
  · intro other node place
    rcases stands other node place with ⟨_, rfl⟩ | ⟨_, different, before⟩
    · exact ⟨frame, update_same ..⟩
    · obtain ⟨held, found⟩ := waiting.filled other node before
      exact ⟨held, (same node different).trans found⟩
  · intro other node place
    rcases stands other node place with ⟨_, rfl⟩ | ⟨_, _, before⟩
    · exact outside
    · exact waiting.outside other node before
  · intro first second node place shared
    rcases stands first node place with ⟨rfl, rfl⟩ | ⟨_, different, before⟩
    · rcases stands second node shared with ⟨rfl, _⟩ | ⟨_, different, _⟩
      · rfl
      · exact absurd rfl different
    · rcases stands second node shared with ⟨_, same⟩ | ⟨_, _, before'⟩
      · exact absurd same different
      · exact waiting.own first second node before before'

/-- The locked section of `EnQueue` puts the thread's own node last. -/
theorem en_queue_invariant (system : System) (thread pnode : Nat)
    (stands : system.threads thread = .enQueue pnode) (invariant : Invariant system) :
    ∃ after, step system (.enQueueLocked thread) = .ok after ∧ Invariant after := by
  obtain ⟨nodes, holds, frames, waiting⟩ := invariant
  obtain ⟨frame, held⟩ := waiting.filled thread pnode stands
  obtain ⟨heap, pqueue, linked, represents, appended, same⟩ := en_queue_represents system.heap
    system.pqueue nodes holds pnode frame (waiting.outside thread pnode stands) held
  have own : values system.heap [pnode] = [frame] := by simp [values, held]
  have taken : step system (.enQueueLocked thread) = .ok { system.at thread .idle with
      heap := heap
      pqueue := pqueue
      enqueued := system.enqueued ++ values system.heap [pnode] } := by
    simp only [step, stands, linked]
  refine ⟨_, taken, nodes ++ [pnode], represents, ?_, ?_⟩
  · simp only [System.at, own, frames, appended, List.append_assoc]
  · refine waiting_kept system _ nodes _ waiting fun other node place => ?_
    obtain ⟨different, before⟩ := moved_thread system thread .idle (by simp) other node place
    refine ⟨before, same node (waiting.outside other node before), ?_⟩
    intro member
    rcases List.mem_append.mp member with inside | added
    · exact waiting.outside other node before inside
    · obtain rfl := List.mem_singleton.mp added
      exact different (waiting.own other thread node before stands)

/-- The locked section of `DeQueue` on an empty queue changes nothing. -/
theorem de_queue_empty (system : System) (thread : Nat) (pnode : Option Nat)
    (stands : system.threads thread = .deQueue pnode) (empty : isEmpty system.pqueue = true) :
    step system (.deQueueLocked thread) = .ok (system.at thread .returning) := by
  simp only [step, stands, deQueueLocked, empty, ↓reduceIte, Option.toList_none, List.append_nil]
  rfl

/-- The locked section of `DeQueue` with the current front removes the head. -/
theorem de_queue_invariant (system : System) (thread : Nat)
    (stands : system.threads thread = .deQueue system.pqueue.front)
    (occupied : isEmpty system.pqueue = false) (invariant : Invariant system) :
    ∃ after, step system (.deQueueLocked thread) = .ok after ∧ Invariant after ∧
      RemovesHead system after := by
  obtain ⟨nodes, holds, frames, waiting⟩ := invariant
  cases nodes with
  | nil =>
    rw [(is_empty_iff _ _ _ holds).mpr rfl] at occupied
    cases occupied
  | cons node rest =>
    obtain ⟨cell, pqueue, found, freed, represents, front, size, shifted⟩ :=
      de_queue_represents system.heap system.pqueue node rest holds
    have taken : step system (.deQueueLocked thread) = .ok { system.at thread .returning with
        heap := system.heap.update node none
        pqueue := pqueue
        dequeued := system.dequeued ++ [cell.value] } := by
      simp only [step, stands, freed, Option.toList_some]
    refine ⟨_, taken, ⟨rest, represents, ?_, ?_⟩, node, cell, holds.chain.1, found, rfl, front, size,
      rfl⟩
    · simp only [System.at, frames, shifted, List.append_assoc, List.singleton_append]
    · refine waiting_kept system _ (node :: rest) rest waiting fun other pnode place => ?_
      obtain ⟨_, before⟩ := moved_thread system thread .returning (by simp) other pnode place
      have away := waiting.outside other pnode before
      refine ⟨before, update_other _ node pnode _ ?_, fun member => ?_⟩
      · exact fun equal => away (equal ▸ List.mem_cons_self)
      · exact away (List.mem_cons_of_mem node member)

/-- Every undisturbed action returns and keeps the invariant. -/
theorem step_invariant (system : System) (action : Action) (invariant : Invariant system)
    (undisturbed : Undisturbed system action) :
    ∃ after, step system action = .ok after ∧ Invariant after := by
  cases action with
  | malloc thread frame pnode =>
    simp only [step]
    split
    · split
      · rename_i fresh
        exact ⟨_, rfl, malloc_invariant system thread _ frame fresh invariant⟩
      · exact ⟨_, rfl, invariant⟩
    · exact ⟨_, rfl, invariant⟩
  | enQueueLocked thread =>
    cases place : system.threads thread with
    | enQueue pnode => exact en_queue_invariant system thread pnode place invariant
    | idle | deQueue | returning => exact ⟨system, by simp only [step, place], invariant⟩
  | readFront thread =>
    simp only [step]
    split
    · exact ⟨_, rfl, moved_invariant system thread _ (by simp) invariant⟩
    · exact ⟨_, rfl, invariant⟩
  | deQueueLocked thread =>
    cases place : system.threads thread with
    | deQueue pnode =>
      cases empty : isEmpty system.pqueue with
      | true =>
        exact ⟨_, de_queue_empty system thread pnode place empty,
          moved_invariant system thread _ (by simp) invariant⟩
      | false =>
        simp only [Undisturbed, place, empty, true_implies] at undisturbed
        subst undisturbed
        obtain ⟨after, taken, kept, _⟩ := de_queue_invariant system thread place empty invariant
        exact ⟨after, taken, kept⟩
    | idle | enQueue | returning => exact ⟨system, by simp only [step, place], invariant⟩
  | returnFront thread =>
    simp only [step]
    split
    · exact ⟨_, rfl, moved_invariant system thread _ (by simp) invariant⟩
    · exact ⟨_, rfl, invariant⟩

/-- A locked section of `DeQueue` that removes the head has freed the node it was
given, so that node was the head. -/
theorem removes_head_undisturbed (system after : System) (thread : Nat) (pnode : Option Nat)
    (stands : system.threads thread = .deQueue pnode) (occupied : isEmpty system.pqueue = false)
    (taken : step system (.deQueueLocked thread) = .ok after) (removes : RemovesHead system after) :
    pnode = system.pqueue.front := by
  obtain ⟨node, cell, front, found, freed, _⟩ := removes
  cases pnode with
  | none =>
    simp only [step, stands, deQueueLocked, occupied, Bool.false_eq_true, ↓reduceIte, Heap.load] at taken
    cases taken
  | some given =>
    cases held : system.heap given with
    | none =>
      simp only [step, stands, deQueueLocked, occupied, Bool.false_eq_true, ↓reduceIte, Heap.load,
        held] at taken
      cases taken
    | some other =>
      simp only [step, stands, deQueueLocked, occupied, Bool.false_eq_true, ↓reduceIte, Heap.load,
        Heap.free, held] at taken
      have heaps : after.heap = system.heap.update given none := by
        rw [← Except.ok.inj taken]
      by_contra different
      have apart : node ≠ given := by
        rintro rfl
        exact different front.symm
      have gone : after.heap node = none := by rw [freed, update_same]
      rw [heaps, update_other _ given node none apart, found] at gone
      cases gone

/-- The queue is linearizable along a run exactly when each `DeQueue` that finds
a node under the lock still has the front it read before. -/
theorem linearizable_iff_undisturbed (actions : List Action) :
    Linearizable actions ↔ Runs.Meets step Undisturbed System.init actions := by
  constructor
  · intro linearizable
    rw [Runs.meets_iff]
    intro earlier action within before reached
    cases action with
    | deQueueLocked thread =>
      obtain ⟨system, run, _, removes⟩ := linearizable earlier
        ((List.prefix_append earlier _).trans within)
      obtain rfl : system = before := Except.ok.inj (run.symm.trans reached)
      cases place : system.threads thread with
      | deQueue pnode =>
        simp only [Undisturbed, place]
        intro occupied
        obtain ⟨after, taken, head⟩ := removes thread pnode within place occupied
        exact removes_head_undisturbed system after thread pnode place occupied taken head
      | idle | enQueue | returning => simp only [Undisturbed, place]
    | malloc | enQueueLocked | readFront | returnFront => trivial
  · intro met earlier within
    obtain ⟨system, run, invariant⟩ := Runs.run_returns Undisturbed Invariant step_invariant
      System.init earlier init_invariant (Runs.meets_prefix Undisturbed _ earlier actions within met)
    refine ⟨system, run, ?_, ?_⟩
    · obtain ⟨nodes, _, frames, _⟩ := invariant
      exact ⟨_, frames.symm⟩
    · intro thread pnode next place occupied
      have undisturbed := (Runs.meets_iff Undisturbed System.init actions).mp met earlier _ next
        system run
      simp only [Undisturbed, place, occupied, true_implies] at undisturbed
      subst undisturbed
      obtain ⟨after, taken, _, head⟩ := de_queue_invariant system thread place occupied invariant
      exact ⟨after, taken, head⟩

/-- One producer and one consumer: the consumer reads the front of the empty
queue, and follows the null pointer once a frame is there. Two consumers of two
frames: both read the same front, and the second follows a freed node. -/
theorem stale_front_faults :
    ¬ Linearizable [.readFront 1, .malloc 0 7 (some 1), .enQueueLocked 0, .deQueueLocked 1] ∧
      ¬ Linearizable [.malloc 0 7 (some 1), .enQueueLocked 0, .malloc 0 8 (some 2),
        .enQueueLocked 0, .readFront 1, .readFront 2, .deQueueLocked 1, .deQueueLocked 2] := by
  have stops : ∀ actions, (Runs.run step System.init actions).isOk = false →
      ¬ Linearizable actions := by
    intro actions stopped linearizable
    obtain ⟨system, run, _⟩ := linearizable actions (List.prefix_refl actions)
    rw [run] at stopped
    cases stopped
  exact ⟨stops _ (by decide), stops _ (by decide)⟩

end IotCamera.LinkedQueue
