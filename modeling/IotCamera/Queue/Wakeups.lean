import IotCamera.Queue.MQueue

/-!
# No wake-up is lost

While a thread is blocked on a condition without a signal, the work of its side
(values to pop for the consumers, free slots for the producers) is covered by
threads that will do it or pass it on: threads of its side that were signalled
or are testing or transferring under the mutex, and a thread of the other side
that has made the work and is about to notify. Blocking starts with no work at
all, work is made by a thread that then notifies, and a signal turns a blocked
thread into a covering one. Outside the mutex only signalled threads cover.

A producer and a consumer can both be blocked without a signal, since a producer
that waits notifies a consumer once more; but then at least `cap` signalled
threads are on their way.
-/

namespace IotCamera.MQueue

universe u
variable {α : Type u}

/-- What a side can still do: values to pop, or slots to fill. -/
def work (cap : Nat) (q : List α) : Side → Nat
  | .product => cap - q.length
  | .consume => q.length

/-- Whether a thread has the mutex. -/
def Place.holds : Place α → Bool
  | .idle => false
  | .inside _ stage =>
    match stage with
    | .test | .notifyBeforeWait | .wait | .transfer | .notify | .unlockQueue => true
    | .lockQueue | .blocked | .signalled | .woken => false

/-- Whether a thread covers one piece of a side's work. -/
def Place.covering (side : Side) : Place α → Bool
  | .idle => false
  | .inside call stage =>
    match stage with
    | .signalled | .test | .transfer => call.side == side
    | .notify => call.side == side.other
    | _ => false

/-- Whether the thread that has the mutex covers one piece of a side's work: it is about to
do it, or has made it and is about to notify. -/
def System.holderCovers (side : Side) (system : System α) : Bool :=
  system.mutex.any fun thread => (system.threads[thread]?).any (Place.covering side)

/-- What a thread that has tested the queue still knows about it. -/
def Place.Settled (cap : Nat) (q : List α) : Place α → Prop
  | .inside call .notifyBeforeWait | .inside call .wait => mustWait cap q call.side = true
  | .inside call .transfer => mustWait cap q call.side = false
  | _ => True

/-- If some thread is blocked on a side's condition, that much work is covered. -/
def Covers (side : Side) (threads : List (Place α)) (amount : Nat) : Prop :=
  (∃ place ∈ threads, place.blockedOn side = true) →
    amount ≤ threads.countP (Place.covering side)

structure Invariant (cap : Nat) (system : System α) : Prop where
  fits : system.q.length ≤ cap
  order : system.pushed = system.popped ++ system.q
  holder : ∀ (thread : Nat) (place : Place α), system.threads[thread]? = some place →
    place.holds = true → system.mutex = some thread
  settled : ∀ (thread : Nat) (place : Place α), system.threads[thread]? = some place →
    place.Settled cap system.q
  covers : ∀ side, Covers side system.threads (work cap system.q side)

/-- The other side of the other side is the side itself. -/
@[simp] theorem other_other (side : Side) : side.other.other = side := by
  cases side <;> rfl

/-- A side is not the other one. -/
@[simp] theorem beq_other (side : Side) : (side == side.other) = false := by
  cases side <;> rfl

/-- There are two sides. -/
theorem own_or_other (side own : Side) : side = own ∨ side = own.other := by
  cases side <;> cases own <;> simp [Side.other]

/-- An empty queue with idle threads has nothing to cover. -/
theorem init_invariant (cap threads : Nat) : Invariant cap (System.init threads : System α) := by
  have idle : ∀ place : Place α, place ∈ List.replicate threads Place.idle → place = .idle :=
    fun place member => (List.mem_replicate.mp member).2
  refine ⟨Nat.zero_le cap, rfl, ?_, ?_, ?_⟩
  · intro thread place stands held
    rw [idle place (List.mem_of_getElem? stands)] at held
    cases held
  · intro thread place stands
    rw [idle place (List.mem_of_getElem? stands)]
    trivial
  · rintro side ⟨place, member, waiting⟩
    rw [idle place member] at waiting
    cases waiting

/-- Covered work stays covered when a thread moves, as far as the move pays for
it and starts no wait. -/
theorem covers_moved (side : Side) (threads : List (Place α)) (thread : Nat)
    (place next : Place α) (amount amount' : Nat) (here : threads[thread]? = some place)
    (covers : Covers side threads amount)
    (balance : amount' + (place.covering side).toNat ≤ amount + (next.covering side).toNat)
    (stays : next.blockedOn side = true → place.blockedOn side = true) :
    Covers side (threads.set thread next) amount' := by
  rintro ⟨other, member, waiting⟩
  have before : ∃ place ∈ threads, place.blockedOn side = true := by
    rcases Places.moved_member threads thread next other member with rfl | old
    · exact ⟨place, List.mem_of_getElem? here, stays waiting⟩
    · exact ⟨other, old, waiting⟩
  have counted := Places.count_moved (Place.covering side) threads thread place next here
  have enough := covers before
  omega

/-- A signal moves one blocked thread, or finds none. -/
theorem signal_cases (threads threads' : List (Place α)) (side : Side) (chosen : Nat)
    (sent : signal threads side chosen = some threads') :
    (threads' = threads ∧ ∀ place ∈ threads, place.blockedOn side = false) ∨
      ∃ call, threads[chosen]? = some (.inside call .blocked) ∧ call.side = side ∧
        threads' = threads.set chosen (.inside call .signalled) := by
  unfold signal at sent
  split at sent
  · split at sent
    · rename_i call stands
      split at sent
      · rename_i own
        exact Or.inr ⟨call, stands, own, (Option.some.inj sent).symm⟩
      · cases sent
    · cases sent
  · rename_i nobody
    refine Or.inl ⟨(Option.some.inj sent).symm, fun place member => ?_⟩
    simpa using fun waiting => nobody (List.any_eq_true.mpr ⟨place, member, waiting⟩)

/-- A signal leaves every thread that is not blocked where it stands. -/
theorem signal_stands (threads threads' : List (Place α)) (side : Side) (chosen thread : Nat)
    (place : Place α) (sent : signal threads side chosen = some threads')
    (stands : threads[thread]? = some place) (awake : ∀ call, place ≠ .inside call .blocked) :
    threads'[thread]? = some place := by
  rcases signal_cases threads threads' side chosen sent with ⟨rfl, _⟩ | ⟨call, blocked, _, rfl⟩
  · exact stands
  · have different : chosen ≠ thread := by
      rintro rfl
      exact awake call (Option.some.inj (stands.symm.trans blocked))
    rw [List.getElem?_set_ne different, stands]

/-- A signal covers one more piece of work for its side. -/
theorem signal_covers (threads threads' : List (Place α)) (side : Side) (chosen amount : Nat)
    (sent : signal threads side chosen = some threads') (covers : Covers side threads amount) :
    Covers side threads' (amount + 1) := by
  rcases signal_cases threads threads' side chosen sent with ⟨rfl, nobody⟩ | ⟨call, blocked, own, rfl⟩
  · rintro ⟨place, member, waiting⟩
    rw [nobody place member] at waiting
    cases waiting
  · refine covers_moved side threads chosen _ _ amount _ blocked covers ?_ ?_
    · simp [Place.covering, own]
    · simp [Place.blockedOn]

/-- A side that must wait has no work. -/
theorem work_of_wait (cap : Nat) (q : List α) (side : Side) (waits : mustWait cap q side = true) :
    work cap q side = 0 := by
  cases side with
  | product =>
    have full : q.length = cap := by simpa [mustWait, isFull] using waits
    simp [work, full]
  | consume =>
    have empty : q.length = 0 := by simpa only [mustWait, isEmpty, beq_iff_eq] using waits
    exact empty

/-- Only a thread with the mutex knows anything about the queue. -/
theorem settled_without_mutex (cap : Nat) (q : List α) (place : Place α)
    (outside : place.holds = false) : place.Settled cap q := by
  cases place with
  | idle => trivial
  | inside call stage => cases stage <;> trivial

section Steps
variable {cap : Nat} {system : System α}

/-- A thread moves and takes, keeps or gives back the mutex. -/
theorem moved_invariant (invariant : Invariant cap system) (thread : Nat) (place next : Place α)
    (here : system.threads[thread]? = some place) (mutex : Option Nat)
    (mine : mutex = system.mutex ∨ system.mutex = none ∨ system.mutex = some thread)
    (taken : next.holds = true → mutex = some thread) (settled : next.Settled cap system.q)
    (covers : ∀ side, Covers side (system.threads.set thread next) (work cap system.q side)) :
    Invariant cap { system.at thread next with mutex := mutex } := by
  refine ⟨invariant.fits, invariant.order, ?_, ?_, covers⟩
  · intro other place' stands held
    rcases Places.moved_place _ thread other next place' stands with ⟨rfl, rfl⟩ | ⟨different, before⟩
    · exact taken held
    · have owner := invariant.holder other place' before held
      rcases mine with same | free | own
      · exact same.trans owner
      · rw [free] at owner
        cases owner
      · exact absurd (Option.some.inj (owner.symm.trans own)) different
  · intro other place' stands
    rcases Places.moved_place _ thread other next place' stands with ⟨_, rfl⟩ | ⟨_, before⟩
    · exact settled
    · exact invariant.settled other place' before

/-- A move that neither gives up covered work nor starts a wait. -/
theorem covers_kept (invariant : Invariant cap system) (thread : Nat) (place next : Place α)
    (here : system.threads[thread]? = some place) (side : Side)
    (kept : place.covering side = true → next.covering side = true)
    (stays : next.blockedOn side = true → place.blockedOn side = true) :
    Covers side (system.threads.set thread next) (work cap system.q side) := by
  refine covers_moved side _ thread place next _ _ here (invariant.covers side) ?_ stays
  cases before : place.covering side with
  | false => simp
  | true => simp [kept before]

/-- A move after finding nothing to do: the own side has no work, and the other
side is not concerned. -/
theorem covers_waiting (invariant : Invariant cap system) (thread : Nat) (call : Call α)
    (stage next : Stage) (here : system.threads[thread]? = some (.inside call stage))
    (waits : mustWait cap system.q call.side = true)
    (indifferent : (Place.inside call stage).covering call.side.other = false)
    (side : Side) :
    Covers side (system.threads.set thread (.inside call next)) (work cap system.q side) := by
  rcases own_or_other side call.side with rfl | rfl
  · intro _
    rw [work_of_wait cap system.q _ waits]
    exact Nat.zero_le _
  · refine covers_kept invariant thread _ _ here _ (fun held => ?_) (fun blocked => ?_)
    · rw [indifferent] at held
      cases held
    · cases next <;> simp [Place.blockedOn] at blocked

/-- A signal keeps the invariant. -/
theorem signal_invariant (invariant : Invariant cap system) (side : Side) (chosen : Nat)
    (threads : List (Place α)) (sent : signal system.threads side chosen = some threads) :
    Invariant cap { system with threads := threads } := by
  rcases signal_cases system.threads threads side chosen sent with ⟨rfl, _⟩ | ⟨call, blocked, own, rfl⟩
  · exact invariant
  · have kept := moved_invariant invariant chosen _ (.inside call .signalled) blocked system.mutex
      (Or.inl rfl) (fun held => by cases held) trivial fun each =>
        covers_kept invariant chosen _ _ blocked each (fun held => by cases held)
          (fun waiting => by cases waiting)
    exact kept

/-- The queue changes in the hands of the thread with the mutex, by one piece of
its side's work. -/
theorem transferred_invariant (invariant : Invariant cap system) (thread : Nat) (call : Call α)
    (here : system.threads[thread]? = some (.inside call .transfer)) (q pushed popped : List α)
    (fits : q.length ≤ cap) (order : pushed = popped ++ q)
    (own : work cap q call.side + 1 ≤ work cap system.q call.side)
    (others : work cap q call.side.other ≤ work cap system.q call.side.other + 1) :
    Invariant cap { system.at thread (.inside call .notify) with
      q := q
      pushed := pushed
      popped := popped } := by
  have owner := invariant.holder thread _ here rfl
  refine ⟨fits, order, ?_, ?_, ?_⟩
  · intro other place stands held
    rcases Places.moved_place _ thread other _ place stands with ⟨rfl, rfl⟩ | ⟨_, before⟩
    · exact owner
    · exact invariant.holder other place before held
  · intro other place stands
    rcases Places.moved_place _ thread other _ place stands with ⟨_, rfl⟩ | ⟨different, before⟩
    · trivial
    · apply settled_without_mutex
      by_contra held
      have mutex := invariant.holder other place before (by simpa using held)
      exact different (Option.some.inj (mutex.symm.trans owner))
  · intro side
    refine covers_moved side _ thread _ _ _ _ here (invariant.covers side) ?_ (by simp [Place.blockedOn])
    rcases own_or_other side call.side with rfl | rfl
    · simpa [Place.covering] using own
    · simpa [Place.covering] using others

/-- A thread takes the free mutex, on the way in or after a wait. -/
theorem locked_invariant (invariant : Invariant cap system) (thread : Nat) (call : Call α)
    (stage : Stage) (here : system.threads[thread]? = some (.inside call stage))
    (free : system.mutex = none)
    (arriving : stage = .lockQueue ∨ stage = .signalled ∨ stage = .woken) :
    Invariant cap { system.at thread (.inside call .test) with mutex := some thread } := by
  refine moved_invariant invariant thread _ _ here _ (Or.inr (Or.inl free)) (fun _ => rfl) trivial ?_
  intro side
  refine covers_kept invariant thread _ _ here side (fun held => ?_) (fun waiting => ?_)
  · rcases arriving with rfl | rfl | rfl
    · cases held
    · exact held
    · cases held
  · cases waiting

/-- The transfer of a call that need not wait. -/
theorem transfer_invariant (invariant : Invariant cap system) (thread chosen : Nat) (call : Call α)
    (here : system.threads[thread]? = some (.inside call .transfer)) :
    ∃ next, advance cap system thread call chosen .transfer = .ok next ∧ Invariant cap next := by
  have settled : mustWait cap system.q call.side = false := invariant.settled thread _ here
  have fits := invariant.fits
  cases call with
  | pushData data =>
    have room : system.q.length < cap := by
      have different : system.q.length ≠ cap := by
        simpa [mustWait, Call.side, isFull] using settled
      omega
    refine ⟨_, rfl, transferred_invariant invariant thread _ here (system.q ++ [data])
      (system.pushed ++ [data]) system.popped ?_ ?_ ?_ ?_⟩
    · rw [List.length_append, List.length_singleton]
      omega
    · rw [invariant.order, List.append_assoc]
    · simp only [Call.side, work, List.length_append, List.length_singleton]
      omega
    · simp [Call.side, Side.other, work]
  | popData =>
    cases shape : system.q with
    | nil => simp [mustWait, Call.side, isEmpty, shape] at settled
    | cons front rest =>
      have popped := transferred_invariant invariant thread _ here rest system.pushed
        (system.popped ++ [front]) ?_ ?_ ?_ ?_
      · exact ⟨_, by simp only [advance, shape]; rfl, popped⟩
      · rw [shape, List.length_cons] at fits
        omega
      · rw [invariant.order, shape, List.append_assoc, List.singleton_append]
      · simp [Call.side, work, shape]
      · simp only [Call.side, Side.other, work, shape, List.length_cons]
        omega

/-- Every statement of a call returns and keeps the invariant. -/
theorem advance_invariant (invariant : Invariant cap system) (thread chosen : Nat) (call : Call α)
    (stage : Stage) (here : system.threads[thread]? = some (.inside call stage)) :
    ∃ next, advance cap system thread call chosen stage = .ok next ∧ Invariant cap next := by
  -- a move under the mutex, which the thread keeps
  have inside : ∀ next : Stage, (Place.inside call stage).holds = true →
      (Place.inside call next).Settled cap system.q →
      (∀ side, Covers side (system.threads.set thread (.inside call next)) (work cap system.q side)) →
      Invariant cap (system.at thread (.inside call next)) := fun next held settled covers =>
    moved_invariant invariant thread _ _ here _ (Or.inl rfl)
      (fun _ => invariant.holder thread _ here held) settled covers
  cases stage with
  | lockQueue | signalled | woken =>
    simp only [advance]
    split
    · rename_i free
      exact ⟨_, rfl, locked_invariant invariant thread call _ here free (by simp)⟩
    · exact ⟨_, rfl, invariant⟩
  | test =>
    simp only [advance]
    split
    · rename_i waits
      exact ⟨_, rfl, inside _ rfl waits
        (covers_waiting invariant thread call _ _ here waits (by simp [Place.covering]))⟩
    · rename_i proceeds
      have settled : mustWait cap system.q call.side = false := by simpa using proceeds
      refine ⟨_, rfl, inside _ rfl settled fun side => ?_⟩
      exact covers_kept invariant thread _ _ here side id (fun waiting => by cases waiting)
  | notifyBeforeWait =>
    simp only [advance]
    split
    · exact ⟨_, rfl, invariant⟩
    · rename_i threads sent
      have signalled := signal_invariant invariant _ chosen threads sent
      have stands := signal_stands _ threads _ chosen thread _ sent here (by simp)
      have waits : mustWait cap system.q call.side = true := invariant.settled thread _ here
      exact ⟨_, rfl, moved_invariant signalled thread _ _ stands _ (Or.inl rfl)
        (fun _ => invariant.holder thread _ here rfl) waits
        (covers_waiting signalled thread call _ _ stands waits rfl)⟩
  | wait =>
    have waits : mustWait cap system.q call.side = true := invariant.settled thread _ here
    exact ⟨_, rfl, moved_invariant invariant thread _ _ here none
      (Or.inr (Or.inr (invariant.holder thread _ here rfl))) (fun held => by cases held) trivial
      (covers_waiting invariant thread call _ _ here waits rfl)⟩
  | blocked => exact ⟨_, rfl, invariant⟩
  | transfer => exact transfer_invariant invariant thread chosen call here
  | notify =>
    simp only [advance]
    split
    · exact ⟨_, rfl, invariant⟩
    · rename_i threads sent
      have signalled := signal_invariant invariant _ chosen threads sent
      have stands := signal_stands _ threads _ chosen thread _ sent here (by simp)
      refine ⟨_, rfl, moved_invariant signalled thread _ _ stands _ (Or.inl rfl)
        (fun _ => invariant.holder thread _ here rfl) trivial fun side => ?_⟩
      -- the signal covers one more piece of work, which the notifying thread covered
      rcases own_or_other side call.side with rfl | rfl
      · exact covers_kept signalled thread _ _ stands _ (fun held => by
          simp [Place.covering] at held) (fun waiting => by cases waiting)
      · have covered := signal_covers _ threads _ chosen _ sent (invariant.covers _)
        refine covers_moved _ threads thread _ _ _ _ stands covered ?_ (fun waiting => by cases waiting)
        simp [Place.covering]
  | unlockQueue =>
    exact ⟨_, rfl, moved_invariant invariant thread _ _ here none
      (Or.inr (Or.inr (invariant.holder thread _ here rfl))) (fun held => by cases held) trivial
      fun side => covers_kept invariant thread _ _ here side (fun held => by cases held)
        (fun waiting => by cases waiting)⟩

/-- Every step returns and keeps the invariant. -/
theorem step_invariant (invariant : Invariant cap system) (action : Action α) :
    ∃ next, step cap system action = .ok next ∧ Invariant cap next := by
  have quiet : ∀ (thread : Nat) (place next : Place α), system.threads[thread]? = some place →
      next.holds = false → (∀ side, place.covering side = true → next.covering side = true) →
      (∀ side, next.blockedOn side = true → place.blockedOn side = true) →
      Invariant cap (system.at thread next) := fun thread place next here outside kept stays =>
    moved_invariant invariant thread place next here _ (Or.inl rfl)
      (fun held => by rw [outside] at held; cases held) (settled_without_mutex cap _ next outside)
      fun side => covers_kept invariant thread place next here side (kept side) (stays side)
  cases action with
  | call thread call =>
    simp only [step]
    split
    · rename_i here
      exact ⟨_, rfl, quiet thread _ _ here rfl (fun _ held => by cases held)
        (fun _ waiting => by cases waiting)⟩
    · exact ⟨_, rfl, invariant⟩
  | proceed thread chosen =>
    simp only [step]
    split
    · rename_i here
      exact advance_invariant invariant thread chosen _ _ here
    · exact ⟨_, rfl, invariant⟩
  | wake thread =>
    simp only [step]
    split
    · rename_i here
      exact ⟨_, rfl, quiet thread _ _ here rfl (fun _ held => by cases held)
        (fun _ waiting => by cases waiting)⟩
    · exact ⟨_, rfl, invariant⟩

/-- At most one thread is inside the mutex, and none when it is free. -/
theorem holders_counted (invariant : Invariant cap system) :
    system.threads.countP Place.holds ≤ if system.mutex = none then 0 else 1 := by
  split
  · rename_i free
    apply Nat.le_of_eq
    rw [List.countP_eq_zero]
    intro place member held
    obtain ⟨thread, stands⟩ := List.mem_iff_getElem?.mp member
    have owner := invariant.holder thread place stands held
    rw [free] at owner
    cases owner
  · apply Places.count_unique
    intro thread other place place' stands stands' held held'
    have first := invariant.holder thread place stands held
    have second := invariant.holder other place' stands' held'
    exact Option.some.inj (first.symm.trans second)

/-- At most one thread inside the mutex covers a side, and it is the one that has it. -/
theorem inside_counted (invariant : Invariant cap system) (side : Side) :
    system.threads.countP (fun place => place.holds && place.covering side) ≤
      if system.holderCovers side then 1 else 0 := by
  split
  case isTrue =>
    have fewer : system.threads.countP (fun place => place.holds && place.covering side) ≤
        system.threads.countP Place.holds :=
      List.countP_mono_left fun place _ both => (Bool.and_eq_true_iff.mp both).1
    have holders := holders_counted invariant
    split at holders
    · omega
    · omega
  case isFalse uncovered =>
    apply Nat.le_of_eq
    rw [List.countP_eq_zero]
    intro place member both
    obtain ⟨held, covering⟩ := Bool.and_eq_true_iff.mp both
    obtain ⟨thread, stands⟩ := List.mem_iff_getElem?.mp member
    have owner := invariant.holder thread place stands held
    refine uncovered ?_
    rw [System.holderCovers, owner, Option.any_some, stands, Option.any_some]
    exact covering

/-- While a thread of a side is blocked without a signal, the work of that side is
covered by signalled threads, and by the thread inside the mutex when it is one that does
the work or notifies. -/
theorem work_signalled (invariant : Invariant cap system) (side : Side)
    (blocked : ∃ place ∈ system.threads, place.blockedOn side = true) :
    work cap system.q side ≤ system.threads.countP (Place.signalledOn side) +
      if system.holderCovers side then 1 else 0 := by
  have covered := invariant.covers side blocked
  have split := Places.count_either (Place.covering side) (Place.signalledOn side)
    (fun place => place.holds && place.covering side) system.threads fun place covering => by
      cases place with
      | idle => cases covering
      | inside call stage =>
        cases stage <;> first | exact Or.inl covering | exact Or.inr covering
  have inside := inside_counted invariant side
  omega

/-- A thread covers one side only. -/
theorem covers_one_side (place : Place α) (product : place.covering .product = true) :
    place.covering .consume = false := by
  cases place with
  | idle => rfl
  | inside call stage => cases stage <;> cases call <;> first | rfl | cases product

/-- So does the thread that has the mutex, and a free mutex covers none. -/
theorem holder_covers_one (system : System α) :
    ((if system.holderCovers .product then 1 else 0) + if system.holderCovers .consume then 1 else 0) ≤
      if system.mutex = none then 0 else 1 := by
  unfold System.holderCovers
  cases system.mutex with
  | none => simp
  | some thread =>
    rw [Option.any_some, Option.any_some]
    cases system.threads[thread]? with
    | none => simp
    | some place =>
      rw [Option.any_some, Option.any_some]
      cases product : place.covering .product with
      | true => simp [covers_one_side place product]
      | false =>
        simp only [Bool.false_eq_true, if_false, reduceCtorEq, Nat.zero_add]
        split
        · exact Nat.le_refl 1
        · exact Nat.zero_le 1

end Steps

/-- The queue never overfills or reorders and loses no wake-up: after every run
the queue is within its capacity, the popped values are the first of the pushed
ones, the work of a side with a blocked thread is covered by signalled threads
and by the thread inside the mutex when it works or notifies for that side, and
when both sides are blocked at least `cap` signalled threads, or one less and the
thread inside the mutex, are on their way. -/
theorem wakeups_not_lost (cap threads : Nat) (actions : List (Action α)) :
    ∃ system, Runs.run (step cap) (System.init threads) actions = .ok system ∧
      system.q.length ≤ cap ∧ system.popped <+: system.pushed ∧
      (∀ side, (∃ place ∈ system.threads, place.blockedOn side = true) →
        work cap system.q side ≤ system.threads.countP (Place.signalledOn side) +
          if system.holderCovers side then 1 else 0) ∧
      ((∀ side, ∃ place ∈ system.threads, place.blockedOn side = true) →
        cap ≤ system.threads.countP (Place.signalledOn .product) +
          system.threads.countP (Place.signalledOn .consume) + if system.mutex = none then 0 else 1) := by
  obtain ⟨system, run, invariant⟩ := Runs.run_always (Invariant cap)
    (fun _ action holds => step_invariant holds action) (System.init threads) actions
    (init_invariant cap threads)
  refine ⟨system, run, invariant.fits, ⟨_, invariant.order.symm⟩, work_signalled invariant, ?_⟩
  intro blocked
  have slots := work_signalled invariant .product (blocked .product)
  have values := work_signalled invariant .consume (blocked .consume)
  have holder := holder_covers_one system
  have fits := invariant.fits
  simp only [work] at slots values
  omega

/-- A call and its first statements, with one choice for the signals. -/
def callSteps (thread : Nat) (call : Call α) (chosen count : Nat) : List (Action α) :=
  .call thread call :: List.replicate count (.proceed thread chosen)

/-- Three consumers wait on a queue of capacity one; a producer pushes and
signals the first, a second producer signals the second and waits. It and the
third consumer are blocked without a signal. And between `q.push` and
`NotifyConsume` a consumer is blocked while the queue has a value and nobody is
signalled. -/
theorem both_sides_blocked :
    (∃ system, Runs.run (step 1) (System.init 5)
        (callSteps 0 .popData 0 4 ++ callSteps 1 .popData 0 4 ++ callSteps 2 .popData 0 4 ++
          callSteps 3 (.pushData 7) 0 5 ++ callSteps 4 (.pushData 8) 1 4) = .ok system ∧
      system.mutex = none ∧ system.threads.any (Place.blockedOn .product) = true ∧
      system.threads.any (Place.blockedOn .consume) = true) ∧
    (∃ system, Runs.run (step 1) (System.init 2)
        (callSteps 0 .popData 0 4 ++ callSteps 1 (.pushData 7) 0 3) = .ok system ∧
      system.threads.any (Place.blockedOn .consume) = true ∧
      ¬ system.q.length ≤ system.threads.countP (Place.signalledOn .consume)) := by
  refine ⟨⟨_, rfl, ?_⟩, ⟨_, rfl, ?_⟩⟩
  · decide
  · decide

end IotCamera.MQueue
