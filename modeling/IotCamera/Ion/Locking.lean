import IotCamera.Ion.Allocator

/-!
# The allocator's lock

The calls of the allocator one after another, as the paths of `main` make them.
Each takes the lock and should give it back. Giving buffers back without a context
returns behind the lock, and the conversions of addresses and closing read the
context without asking whether it is there; `main` makes two of these calls after
an opening that failed.

A sequence of calls keeps the lock free exactly when each of the calls that need a
context finds one.
-/

namespace IotCamera.Ion

open Memory

/-- A call of the allocator, with the answers it is given. -/
inductive Operation where
  | opening (iommuFlag : Int) (outcome : OpenOutcome)
  | palloc (bufferInfo : Option (List (MemBufInfo × Outcome)))
  | pfree (bufferInfo : Option (List (MemBufInfo × FreeOutcome)))
  | vir2phy (pbuf : Word)
  | phy2vir (pbuf : Word)
  | closing
  deriving DecidableEq, Repr

/-- The allocator after a call, or where it stays. -/
def step (allocator : Allocator) : Operation → Except (Stop × Allocator) Allocator
  | .opening iommuFlag outcome => Prod.fst <$> seanIonAllocOpen allocator iommuFlag outcome
  | .palloc bufferInfo => Prod.fst <$> seanIonAllocPalloc allocator bufferInfo
  | .pfree bufferInfo => seanIonAllocPfree allocator bufferInfo
  | .vir2phy pbuf => Prod.fst <$> seanIonAllocVir2phyCpu allocator pbuf
  | .phy2vir pbuf => Prod.fst <$> seanIonAllocPhy2virCpu allocator pbuf
  | .closing => seanIonAllocClose allocator

/-- The call finds a context, or does not look for one. -/
def Allowed (allocator : Allocator) : Operation → Prop
  | .opening _ _ | .palloc _ => True
  | .pfree bufferInfo =>
    bufferInfo = none ∨ bufferInfo = some [] ∨ allocator.gIonAllocContext ≠ none
  | .vir2phy pbuf => pbuf = 0 ∨ allocator.gIonAllocContext ≠ none
  | .phy2vir _ | .closing => allocator.gIonAllocContext ≠ none

instance (allocator : Allocator) : (operation : Operation) → Decidable (Allowed allocator operation)
  | .opening _ _ | .palloc _ => isTrue trivial
  | .pfree _ => inferInstanceAs (Decidable (_ ∨ _ ∨ _))
  | .vir2phy _ => inferInstanceAs (Decidable (_ ∨ _))
  | .phy2vir _ | .closing => inferInstanceAs (Decidable (¬ _))

/-- The call returns with the lock given back. -/
def Returns (allocator : Allocator) (operation : Operation) : Prop :=
  ∃ after, step allocator operation = .ok after ∧ after.gIonMutexAlloc = false

/-- A free lock is taken. -/
theorem lock_free (allocator : Allocator) (free : allocator.gIonMutexAlloc = false) :
    pthreadMutexLock allocator = .ok { allocator with gIonMutexAlloc := true } := by
  rw [pthreadMutexLock, free]
  rfl

section
variable (allocator : Allocator) (free : allocator.gIonMutexAlloc = false)
include free

/-- Where there is a context, a call gives the lock back, and all but closing leave a
context. -/
theorem open_returns (context : IonAllocContext) (isOpen : allocator.gIonAllocContext = some context)
    (operation : Operation) (other : operation ≠ .closing) :
    ∃ after, step allocator operation = .ok after ∧ after.gIonMutexAlloc = false ∧
      ∃ context', after.gIonAllocContext = some context' := by
  match operation with
  | .closing => exact absurd rfl other
  | .palloc none | .palloc (some []) | .pfree none | .pfree (some []) =>
    exact ⟨allocator, rfl, free, context, isOpen⟩
  | .opening iommuFlag outcome =>
    simp only [step, seanIonAllocOpen, lock_free allocator free, isOpen, bind, Except.bind, pure,
      Except.pure]
    exact ⟨_, rfl, rfl, _, rfl⟩
  | .palloc (some (request :: rest)) =>
    simp only [step, seanIonAllocPalloc, lock_free allocator free, isOpen, bind, Except.bind, pure,
      Except.pure]
    exact ⟨_, rfl, rfl, _, rfl⟩
  | .pfree (some (request :: rest)) =>
    simp only [step, seanIonAllocPfree, lock_free allocator free, isOpen, bind, Except.bind, pure,
      Except.pure]
    exact ⟨_, rfl, rfl, _, rfl⟩
  | .vir2phy pbuf =>
    by_cases null : pbuf = 0
    · refine ⟨allocator, ?_, free, context, isOpen⟩
      rw [step, seanIonAllocVir2phyCpu, if_pos null]
      rfl
    simp only [step, seanIonAllocVir2phyCpu, if_neg null, lock_free allocator free, isOpen, bind,
      Except.bind, pure, Except.pure]
    exact ⟨_, rfl, rfl, context, rfl⟩
  | .phy2vir pbuf =>
    simp only [step, seanIonAllocPhy2virCpu, lock_free allocator free, isOpen, bind, Except.bind,
      pure, Except.pure]
    exact ⟨_, rfl, rfl, context, rfl⟩

/-- Closing an open allocator returns with the lock given back. -/
theorem closing_returns (context : IonAllocContext)
    (isOpen : allocator.gIonAllocContext = some context) : Returns allocator .closing := by
  simp only [Returns, step, seanIonAllocClose, lock_free allocator free, isOpen, bind, Except.bind,
    pure, Except.pure]
  by_cases last : context.refCnt - 1 ≤ 0
  · exact ⟨_, if_pos last, rfl⟩
  · exact ⟨_, if_neg last, rfl⟩

/-- Without a context, opening gives the lock back on every path. -/
theorem opening_returns (iommuFlag : Int) (outcome : OpenOutcome)
    (closed : allocator.gIonAllocContext = none) :
    Returns allocator (.opening iommuFlag outcome) := by
  simp only [Returns, step, seanIonAllocOpen, lock_free allocator free, closed, bind, Except.bind,
    pure, Except.pure]
  by_cases malloc : outcome.malloc = false
  · exact ⟨_, by rw [if_pos malloc]; rfl, rfl⟩
  by_cases device : outcome.fd ≤ 0
  · exact ⟨_, by rw [if_neg malloc, if_pos device]; rfl, rfl⟩
  by_cases engine : iommuFlag ≠ 0 ∧ outcome.tarzanFd ≤ 0
  · exact ⟨_, by rw [if_neg malloc, if_neg device, if_pos engine]; rfl, rfl⟩
  · exact ⟨_, by rw [if_neg malloc, if_neg device, if_neg engine]; rfl, rfl⟩

/-- Without a context, giving buffers back returns behind the lock, and the conversions
and closing read through a null pointer. -/
theorem closed_returns_iff (operation : Operation) (closed : allocator.gIonAllocContext = none) :
    Returns allocator operation ↔ Allowed allocator operation := by
  match operation with
  | .opening iommuFlag outcome =>
    exact iff_of_true (opening_returns allocator free iommuFlag outcome closed) trivial
  | .palloc none | .palloc (some []) => exact iff_of_true ⟨allocator, rfl, free⟩ trivial
  | .palloc (some (request :: rest)) =>
    refine iff_of_true ?_ trivial
    simp only [Returns, step, seanIonAllocPalloc, lock_free allocator free, closed, bind,
      Except.bind, pure, Except.pure]
    exact ⟨_, rfl, rfl⟩
  | .pfree none => exact iff_of_true ⟨allocator, rfl, free⟩ (Or.inl rfl)
  | .pfree (some []) => exact iff_of_true ⟨allocator, rfl, free⟩ (Or.inr (Or.inl rfl))
  | .pfree (some (request :: rest)) =>
    simp [Returns, Allowed, step, seanIonAllocPfree, lock_free allocator free, closed, bind,
      Except.bind, pure, Except.pure]
  | .vir2phy pbuf =>
    by_cases null : pbuf = 0
    · refine iff_of_true ⟨allocator, ?_, free⟩ (Or.inl null)
      rw [step, seanIonAllocVir2phyCpu, if_pos null]
      rfl
    · refine iff_of_false ?_ (fun allowed => allowed.elim null (fun given => given closed))
      simp only [Returns, step, seanIonAllocVir2phyCpu, if_neg null, lock_free allocator free,
        closed, bind, Except.bind]
      rintro ⟨_, stopped, -⟩
      cases stopped
  | .phy2vir pbuf =>
    refine iff_of_false ?_ (fun given => given closed)
    simp only [Returns, step, seanIonAllocPhy2virCpu, lock_free allocator free, closed, bind,
      Except.bind]
    rintro ⟨_, stopped, -⟩
    cases stopped
  | .closing =>
    refine iff_of_false ?_ (fun given => given closed)
    simp only [Returns, step, seanIonAllocClose, lock_free allocator free, closed, bind,
      Except.bind]
    rintro ⟨_, stopped, -⟩
    cases stopped

/-- A call made behind a free lock gives it back exactly when it is allowed. -/
theorem returns_iff (operation : Operation) :
    Returns allocator operation ↔ Allowed allocator operation := by
  cases isOpen : allocator.gIonAllocContext with
  | none => exact closed_returns_iff allocator free operation isOpen
  | some context =>
    refine iff_of_true ?_ (by cases operation <;> simp [Allowed, isOpen])
    by_cases last : operation = .closing
    · rw [last]
      exact closing_returns allocator free context isOpen
    · obtain ⟨after, called, unlocked, -⟩ := open_returns allocator free context isOpen operation last
      exact ⟨after, called, unlocked⟩

end

/-- Every call of the sequence returns, and finds and leaves the lock free. -/
def NeverKeeps (allocator : Allocator) (operations : List Operation) : Prop :=
  ∀ earlier, earlier <+: operations →
    ∃ after, Runs.run step allocator earlier = .ok after ∧ after.gIonMutexAlloc = false

/-- The lock stays free throughout a sequence of calls exactly when each call that needs
a context finds one. -/
theorem never_keeps_iff (allocator : Allocator) (operations : List Operation)
    (free : allocator.gIonMutexAlloc = false) :
    NeverKeeps allocator operations ↔ Runs.Meets step Allowed allocator operations :=
  Runs.run_returns_iff Allowed (fun state => state.gIonMutexAlloc = false)
    (fun state operation unlocked => returns_iff state unlocked operation) allocator operations free

/-- The allocator when the process starts. -/
def idle : Allocator := ⟨none, false, ⟨[], [], []⟩⟩

/-- The calls of `main`: after an opening or an allocation that failed it goes to
`NNA_EXIT`, where it gives the buffers back and closes, whatever it has. -/
def mainPath (opened : OpenOutcome) (requests : List (MemBufInfo × Outcome)) (resized : List Word)
    (released : List (MemBufInfo × FreeOutcome)) : List Operation :=
  let nnaExit := [.pfree (some released), .closing]
  .opening 1 opened :: match seanIonAllocOpen idle 1 opened with
    | .error _ => []
    | .ok (allocator, ret) =>
      if ret ≠ 0 then nnaExit
      else .palloc (some requests) :: match seanIonAllocPalloc allocator (some requests) with
        | .error _ => []
        | .ok (_, _, ret) => if ret ≠ 0 then nnaExit else resized.map .phy2vir ++ nnaExit

/-- The memory and both devices are there. -/
def OpenOutcome.Opens (outcome : OpenOutcome) : Prop :=
  outcome.malloc = true ∧ 0 < outcome.fd ∧ 0 < outcome.tarzanFd

instance (outcome : OpenOutcome) : Decidable outcome.Opens :=
  inferInstanceAs (Decidable (_ ∧ _ ∧ _))

/-- Where there is a context, calls up to the closing one are allowed. -/
theorem open_meets (allocator : Allocator) (context : IonAllocContext) (operations : List Operation)
    (others : ∀ operation ∈ operations, operation ≠ .closing)
    (free : allocator.gIonMutexAlloc = false) (isOpen : allocator.gIonAllocContext = some context) :
    Runs.Meets step Allowed allocator (operations ++ [.closing]) := by
  induction operations generalizing allocator context with
  | nil =>
    refine ⟨by simp [Allowed, isOpen], ?_⟩
    cases step allocator .closing <;> trivial
  | cons operation rest inductionHypothesis =>
    obtain ⟨after, called, unlocked, context', stays⟩ := open_returns allocator free context isOpen
      operation (others operation List.mem_cons_self)
    refine ⟨(returns_iff allocator free operation).mp ⟨after, called, unlocked⟩, ?_⟩
    rw [called]
    exact inductionHypothesis after context'
      (fun later member => others later (List.mem_cons_of_mem operation member)) unlocked stays

/-- An opening of the idle allocator, by its answers. -/
theorem open_idle (outcome : OpenOutcome) :
    seanIonAllocOpen idle 1 outcome =
      if outcome.Opens then
        .ok (⟨some ⟨outcome.fd, outcome.tarzanFd, [], 1, 1⟩, false, ⟨[], [], []⟩⟩, 0)
      else .ok (idle, -1) := by
  have opens : outcome.Opens ↔ ¬ outcome.malloc = false ∧ ¬ outcome.fd ≤ 0 ∧
      ¬ ((1 : Int) ≠ 0 ∧ outcome.tarzanFd ≤ 0) := by
    simp [OpenOutcome.Opens]
  rw [seanIonAllocOpen, lock_free idle rfl]
  by_cases malloc : outcome.malloc = false
  · rw [if_neg (fun given => (opens.mp given).1 malloc)]
    simp [idle, malloc, pthreadMutexUnlock, bind, Except.bind, pure, Except.pure]
  by_cases device : outcome.fd ≤ 0
  · rw [if_neg (fun given => (opens.mp given).2.1 device)]
    simp [idle, malloc, device, pthreadMutexUnlock, bind, Except.bind, pure, Except.pure]
  by_cases engine : (1 : Int) ≠ 0 ∧ outcome.tarzanFd ≤ 0
  · rw [if_neg (fun given => (opens.mp given).2.2 engine)]
    simp [idle, malloc, device, engine.2, pthreadMutexUnlock, bind, Except.bind, pure, Except.pure]
  · rw [if_pos (opens.mpr ⟨malloc, device, engine⟩)]
    have reached : ¬ outcome.tarzanFd ≤ 0 := fun missing => engine ⟨by decide, missing⟩
    simp [idle, malloc, device, reached, pthreadMutexUnlock, bind, Except.bind, pure, Except.pure]

/-- A step that allocates is a call that returned. -/
theorem palloc_of_step (allocator after : Allocator)
    (bufferInfo : Option (List (MemBufInfo × Outcome)))
    (stepped : step allocator (.palloc bufferInfo) = .ok after) :
    ∃ infos ret, seanIonAllocPalloc allocator bufferInfo = .ok (after, infos, ret) := by
  rw [step] at stepped
  cases called : seanIonAllocPalloc allocator bufferInfo with
  | error stop =>
    rw [called] at stepped
    cases stepped
  | ok result =>
    rw [called] at stepped
    obtain rfl : result.1 = after := Except.ok.inj stepped
    exact ⟨result.2.1, result.2.2, rfl⟩

/-- The calls of `main` when its opening succeeds end with the only closing one. -/
theorem main_path_opened (opened : OpenOutcome) (requests : List (MemBufInfo × Outcome))
    (resized : List Word) (released : List (MemBufInfo × FreeOutcome)) (opens : opened.Opens) :
    ∃ operations, mainPath opened requests resized released =
        .opening 1 opened :: (operations ++ [.closing]) ∧
      ∀ operation ∈ operations, operation ≠ .closing := by
  obtain ⟨after, allocated, -⟩ := open_returns
    ⟨some ⟨opened.fd, opened.tarzanFd, [], 1, 1⟩, false, ⟨[], [], []⟩⟩ rfl _ rfl
    (.palloc (some requests)) Operation.noConfusion
  obtain ⟨infos, ret, called⟩ := palloc_of_step _ after (some requests) allocated
  unfold mainPath
  simp only [open_idle, if_pos opens, called]
  by_cases refused : ret ≠ 0
  · refine ⟨[.palloc (some requests), .pfree (some released)], ?_, by simp⟩
    simp [refused]
  · refine ⟨.palloc (some requests) :: (resized.map .phy2vir ++ [.pfree (some released)]), ?_, ?_⟩
    · simp [not_not.mp refused]
    · intro operation member
      simp only [List.mem_cons, List.mem_append, List.mem_map, List.not_mem_nil, or_false] at member
      rcases member with rfl | ⟨_, -, rfl⟩ | rfl
      all_goals exact Operation.noConfusion

/-- `main` keeps the lock free exactly when its opening succeeds. -/
theorem main_path_iff (opened : OpenOutcome) (requests : List (MemBufInfo × Outcome))
    (resized : List Word) (released : List (MemBufInfo × FreeOutcome)) (buffers : released ≠ []) :
    NeverKeeps idle (mainPath opened requests resized released) ↔ opened.Opens := by
  rw [NeverKeeps, Runs.run_returns_iff Allowed (fun state => state.gIonMutexAlloc = false)
    (fun state operation unlocked => returns_iff state unlocked operation) idle _ rfl]
  by_cases opens : opened.Opens
  · obtain ⟨operations, path, others⟩ := main_path_opened opened requests resized released opens
    refine iff_of_true ?_ opens
    rw [path]
    refine ⟨trivial, ?_⟩
    simp only [step, open_idle, if_pos opens]
    exact open_meets _ _ operations others rfl rfl
  · refine iff_of_false ?_ opens
    unfold mainPath
    simp only [open_idle, if_neg opens]
    rintro ⟨-, following⟩
    simp only [step, open_idle, if_neg opens] at following
    obtain ⟨none | empty | isOpen, -⟩ := following
    · cases none
    · exact buffers (Option.some.inj empty)
    · exact isOpen rfl

/-- A whole run of `main` with one buffer keeps the lock free. -/
theorem main_keeps_free :
    idle.gIonMutexAlloc = false ∧ NeverKeeps idle (mainPath ⟨true, 3, 4⟩
      [(⟨0, 0, 0, 0x200000⟩, ⟨0, 7, 0, 5, some 0x40000000, 0, 0, 0, 0, 0, true, 0, 0⟩)] [0]
      [(⟨5, 0x40000000, 0, 0x200000⟩, ⟨0, 0⟩)]) :=
  ⟨rfl, (never_keeps_iff idle _ rfl).mpr (by decide)⟩

/-- The engine's device is missing: the exit path of `main` keeps the lock when it gives
its buffer back, and waits for it for ever when it closes. -/
theorem main_waits_for_itself :
    ¬ NeverKeeps idle (mainPath ⟨true, 3, -1⟩
        [(⟨0, 0, 0, 0x200000⟩, ⟨0, 7, 0, 5, some 0x40000000, 0, 0, 0, 0, 0, true, 0, 0⟩)] []
        [(⟨0, 0, 0, 0x200000⟩, ⟨0, 0⟩)]) ∧
      Runs.reason (Runs.run step idle (mainPath ⟨true, 3, -1⟩
        [(⟨0, 0, 0, 0x200000⟩, ⟨0, 7, 0, 5, some 0x40000000, 0, 0, 0, 0, 0, true, 0, 0⟩)] []
        [(⟨0, 0, 0, 0x200000⟩, ⟨0, 0⟩)])) = some .blocked := by
  refine ⟨?_, by decide⟩
  rw [main_path_iff _ _ _ _ (List.cons_ne_nil _ _)]
  decide

end IotCamera.Ion
