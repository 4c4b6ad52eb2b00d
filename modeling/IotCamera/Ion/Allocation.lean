import Mathlib.Data.List.Forall2
import IotCamera.Ion.Allocator

/-!
# All or nothing

A call that serves several requests should serve all of them or leave nothing
behind. The loop ends at the first request that fails and keeps what it has: the
nodes of the requests before it stay in the list, and of the failed request's own
handle, descriptor and mapping only a failed `malloc` gives anything back. The
value returned is that of the last answer, which is zero when the request was for
no bytes, when the mapping failed and when the context is not there.

So the call is all or nothing exactly when every request succeeds, or when the
very first one is refused its handle.
-/

namespace IotCamera.Ion

open Memory

/-- The answers for a physical address are zero. -/
def Addressed (iommuFlag : Int) (outcome : Outcome) : Prop :=
  if iommuFlag ≠ 0 then outcome.engineReq = 0 ∧ outcome.getIommuAddr = 0 else outcome.custom = 0

instance (iommuFlag : Int) (outcome : Outcome) : Decidable (Addressed iommuFlag outcome) :=
  inferInstanceAs (Decidable (if iommuFlag ≠ 0 then _ else _))

/-- A request for some bytes, all of whose steps are answered with success. -/
structure Succeeds (iommuFlag : Int) (request : MemBufInfo × Outcome) : Prop where
  bytes : request.1.bufferSize ≠ 0
  alloc : request.2.alloc = 0
  map : request.2.map = 0
  mmap : request.2.mmap ≠ none
  addressed : Addressed iommuFlag request.2
  malloc : request.2.malloc = true

/-- Hold what a node stands for. -/
def Held.acquire (held : Held) (node : BufferNode) : Held :=
  ⟨node.handle :: held.handles, node.qgFd :: held.fds, node.vir :: held.mappings⟩

/-- A buffer that is addressed has a physical address. -/
theorem physical_address_ok (iommuFlag : Int) (outcome : Outcome)
    (addressed : Addressed iommuFlag outcome) :
    ∃ addrPhy, physicalAddress iommuFlag outcome = .ok addrPhy := by
  unfold Addressed at addressed
  unfold physicalAddress
  split at addressed
  · rename_i iommu
    rw [if_pos iommu, addressed.1, addressed.2]
    exact ⟨outcome.iommuAddr, rfl⟩
  · rename_i direct
    rw [if_neg direct, addressed]
    exact ⟨outcome.physAddr, rfl⟩

/-- One that is not has none. -/
theorem physical_address_error (iommuFlag : Int) (outcome : Outcome)
    (refused : ¬ Addressed iommuFlag outcome) :
    ∃ ret, physicalAddress iommuFlag outcome = .error ret := by
  unfold Addressed at refused
  unfold physicalAddress
  split at refused
  · rename_i iommu
    rw [if_pos iommu]
    by_cases engine : outcome.engineReq = 0
    · have address : outcome.getIommuAddr ≠ 0 := fun zero => refused ⟨engine, zero⟩
      exact ⟨_, by rw [if_neg (not_not_intro engine), if_pos address]⟩
    · exact ⟨_, if_pos engine⟩
  · rename_i direct
    exact ⟨_, by rw [if_neg direct, if_pos refused]⟩

/-- A node is made of the answers to a request. -/
structure NodeOf (iommuFlag : Int) (request : MemBufInfo × Outcome) (node : BufferNode) : Prop where
  size : node.size = request.1.bufferSize
  handle : node.handle = request.2.handle
  qgFd : node.qgFd = request.2.qgFd
  vir : request.2.mmap = some node.vir
  phy : physicalAddress iommuFlag request.2 = .ok node.phy

/-- A request that succeeds is held and has its node. -/
theorem alloc_one_succeeds (iommuFlag : Int) (held : Held) (ret : Int)
    (request : MemBufInfo × Outcome) (succeeds : Succeeds iommuFlag request) :
    ∃ node, allocOne iommuFlag held ret request.1 request.2 = (held.acquire node, 0, some node) ∧
      NodeOf iommuFlag request node := by
  obtain ⟨bytes, alloc, map, mmap, addressed, malloc⟩ := succeeds
  obtain ⟨addrVir, mapped⟩ := Option.ne_none_iff_exists'.mp mmap
  obtain ⟨addrPhy, located⟩ := physical_address_ok iommuFlag request.2 addressed
  refine ⟨⟨addrPhy, addrVir, request.1.bufferSize, addrVir, request.2.handle, request.2.qgFd⟩, ?_,
    rfl, rfl, rfl, mapped, located⟩
  simp only [allocOne, bytes, alloc, map, mapped, located, malloc, ↓reduceIte, not_true_eq_false,
    ne_eq, Held.acquire]

/-- A request that fails has no node. From a zero `ret` it leaves nothing behind and
says so exactly when it was refused its handle. -/
theorem alloc_one_fails (iommuFlag : Int) (held : Held) (request : MemBufInfo × Outcome)
    (fails : ¬ Succeeds iommuFlag request) :
    ∃ kept ret, allocOne iommuFlag held 0 request.1 request.2 = (kept, ret, none) ∧
      (ret ≠ 0 ∧ kept = held ↔ request.1.bufferSize ≠ 0 ∧ request.2.alloc ≠ 0) := by
  by_cases bytes : request.1.bufferSize = 0
  · exact ⟨held, 0, by rw [allocOne, if_pos bytes],
      iff_of_false (fun clean => clean.1 rfl) (fun refused => refused.1 bytes)⟩
  by_cases alloc : request.2.alloc = 0
  case neg =>
    exact ⟨held, request.2.alloc, by rw [allocOne, if_neg bytes, if_pos alloc],
      iff_of_true ⟨alloc, rfl⟩ ⟨bytes, alloc⟩⟩
  have served : ¬ (request.1.bufferSize ≠ 0 ∧ request.2.alloc ≠ 0) := fun refused => refused.2 alloc
  have grown : ∀ (ret : Int) (kept : Held), kept.handles = request.2.handle :: held.handles →
      ¬ (ret ≠ 0 ∧ kept = held) := by
    rintro ret kept more ⟨_, rfl⟩
    exact List.cons_ne_self _ _ more.symm
  by_cases map : request.2.map = 0
  case neg =>
    exact ⟨_, request.2.map, by rw [allocOne, if_neg bytes, if_neg (not_not_intro alloc), if_pos map],
      iff_of_false (grown _ _ rfl) served⟩
  cases mapped : request.2.mmap with
  | none =>
    refine ⟨⟨request.2.handle :: held.handles, request.2.qgFd :: held.fds, held.mappings⟩,
      request.2.map, ?_, ?_⟩
    · rw [allocOne, if_neg bytes, if_neg (not_not_intro alloc), if_neg (not_not_intro map), mapped]
    · exact iff_of_false (grown _ _ rfl) served
  | some addrVir =>
    by_cases addressed : Addressed iommuFlag request.2
    case neg =>
      obtain ⟨ret, refused⟩ := physical_address_error iommuFlag request.2 addressed
      refine ⟨⟨request.2.handle :: held.handles, request.2.qgFd :: held.fds,
        addrVir :: held.mappings⟩, ret, ?_, ?_⟩
      · rw [allocOne, if_neg bytes, if_neg (not_not_intro alloc), if_neg (not_not_intro map), mapped]
        simp only [refused]
      · exact iff_of_false (grown _ _ rfl) served
    obtain ⟨addrPhy, located⟩ := physical_address_ok iommuFlag request.2 addressed
    have malloc : request.2.malloc = false := by
      by_contra given
      exact fails ⟨bytes, alloc, map, by simp [mapped], addressed, by simpa using given⟩
    refine ⟨⟨if request.2.free = 0 then (request.2.handle :: held.handles).erase request.2.handle
        else request.2.handle :: held.handles, (request.2.qgFd :: held.fds).erase request.2.qgFd,
      if request.2.munmap = 0 then (addrVir :: held.mappings).erase addrVir
        else addrVir :: held.mappings⟩, request.2.free, ?_, iff_of_false ?_ served⟩
    · rw [allocOne, if_neg bytes, if_neg (not_not_intro alloc), if_neg (not_not_intro map), mapped]
      simp only [located, malloc, Bool.false_eq_true, ↓reduceIte]
    · by_cases free : request.2.free = 0
      · exact fun clean => clean.1 free
      · exact grown _ _ (if_neg free)

/-- Nodes are made for requests, one each and in order, and the requests filled in. -/
structure Fills (iommuFlag : Int) (requests : List (MemBufInfo × Outcome))
    (nodes : List BufferNode) (infos : List MemBufInfo) : Prop where
  made : List.Forall₂ (NodeOf iommuFlag) requests nodes
  filled : infos = List.zipWith MemBufInfo.fill (requests.map Prod.fst) nodes

/-- When every request succeeds, all of them are held and appended. -/
theorem palloc_loop_succeeds (iommuFlag : Int) (requests : List (MemBufInfo × Outcome))
    (list : List BufferNode) (held : Held)
    (succeed : ∀ request ∈ requests, Succeeds iommuFlag request) :
    ∃ nodes infos, pallocLoop iommuFlag list held 0 requests =
        (list ++ nodes, nodes.foldl Held.acquire held, 0, infos) ∧
      Fills iommuFlag requests nodes infos := by
  induction requests generalizing list held with
  | nil => exact ⟨[], [], by simp [pallocLoop], List.Forall₂.nil, rfl⟩
  | cons request rest inductionHypothesis =>
    obtain ⟨node, served, made⟩ := alloc_one_succeeds iommuFlag held 0 request
      (succeed request List.mem_cons_self)
    obtain ⟨nodes, infos, looped, others, filled⟩ := inductionHypothesis (list ++ [node])
      (held.acquire node) (fun other member => succeed other (List.mem_cons_of_mem request member))
    refine ⟨node :: nodes, request.1.fill node :: infos, ?_, List.Forall₂.cons made others, ?_⟩
    · simp [pallocLoop, served, looped]
    · simp [filled]

/-- When some request fails, there are fewer nodes than requests. Nothing is left
behind and the answer says so exactly when the first request was refused its handle. -/
theorem palloc_loop_fails (iommuFlag : Int) (requests : List (MemBufInfo × Outcome))
    (list : List BufferNode) (held : Held)
    (fails : ∃ request ∈ requests, ¬ Succeeds iommuFlag request) :
    ∃ nodes kept ret infos, pallocLoop iommuFlag list held 0 requests =
        (list ++ nodes, kept, ret, infos) ∧ nodes.length < requests.length ∧
      (nodes = [] ∧ ret ≠ 0 ∧ kept = held ↔
        ∃ first rest, requests = first :: rest ∧ first.1.bufferSize ≠ 0 ∧ first.2.alloc ≠ 0) := by
  induction requests generalizing list held with
  | nil => simp at fails
  | cons request rest inductionHypothesis =>
    by_cases first : Succeeds iommuFlag request
    · obtain ⟨node, served, _⟩ := alloc_one_succeeds iommuFlag held 0 request first
      have later : ∃ other ∈ rest, ¬ Succeeds iommuFlag other := by
        obtain ⟨other, member, fault⟩ := fails
        rcases List.mem_cons.mp member with rfl | inside
        · exact absurd first fault
        · exact ⟨other, inside, fault⟩
      obtain ⟨nodes, kept, ret, infos, looped, fewer, _⟩ := inductionHypothesis (list ++ [node])
        (held.acquire node) later
      refine ⟨node :: nodes, kept, ret, request.1.fill node :: infos, ?_, by simp [fewer],
        iff_of_false ?_ ?_⟩
      · simp [pallocLoop, served, looped]
      · rintro ⟨empty, -⟩
        exact List.cons_ne_nil node nodes empty
      · rintro ⟨_, _, same, -, refused⟩
        obtain ⟨rfl, -⟩ := List.cons.inj same
        exact refused first.alloc
    · obtain ⟨kept, ret, refused, clean⟩ := alloc_one_fails iommuFlag held request first
      refine ⟨[], kept, ret, request.1 :: rest.map Prod.fst, by simp [pallocLoop, refused], by simp, ?_⟩
      constructor
      · rintro ⟨-, left⟩
        obtain ⟨bytes, alloc⟩ := clean.mp left
        exact ⟨request, rest, rfl, bytes, alloc⟩
      · rintro ⟨_, _, same, bytes, alloc⟩
        obtain ⟨rfl, -⟩ := List.cons.inj same
        exact ⟨rfl, clean.mpr ⟨bytes, alloc⟩⟩

/-- The context is open, and every request was allocated, mapped, appended to its
list and filled in. -/
def Served (allocator after : Allocator) (requests : List (MemBufInfo × Outcome))
    (infos : List MemBufInfo) : Prop :=
  ∃ context nodes, allocator.gIonAllocContext = some context ∧
    after.gIonAllocContext = some { context with list := context.list ++ nodes } ∧
    after.held = nodes.foldl Held.acquire allocator.held ∧
    Fills context.iommuFlag requests nodes infos

/-- The call returns, with zero exactly when the requests were served; when they were
not, the list and what is held are what they were. -/
def AllOrNothing (allocator : Allocator) (requests : List (MemBufInfo × Outcome)) : Prop :=
  ∃ after infos ret, seanIonAllocPalloc allocator (some requests) = .ok (after, infos, ret) ∧
    (ret = 0 ↔ Served allocator after requests infos) ∧
    (¬ Served allocator after requests infos →
      after.gIonAllocContext.map IonAllocContext.list =
        allocator.gIonAllocContext.map IonAllocContext.list ∧ after.held = allocator.held)

/-- When a call is all or nothing. Without a context only the call for no requests
is, which is answered before the context is looked at. With one, the lock is free
and there is a request; and all requests succeed, or the first is refused its
handle. -/
def Clean (allocator : Allocator) (requests : List (MemBufInfo × Outcome)) : Prop :=
  match allocator.gIonAllocContext with
  | none => requests = []
  | some context => requests ≠ [] ∧ allocator.gIonMutexAlloc = false ∧
      ((∀ request ∈ requests, Succeeds context.iommuFlag request) ∨
        ∃ first rest, requests = first :: rest ∧ first.1.bufferSize ≠ 0 ∧ first.2.alloc ≠ 0)

/-- What a call for some requests returns behind a free lock and an open context. -/
theorem palloc_open (allocator : Allocator) (context : IonAllocContext)
    (requests : List (MemBufInfo × Outcome)) (some_request : requests ≠ [])
    (isOpen : allocator.gIonAllocContext = some context)
    (free : allocator.gIonMutexAlloc = false) :
    ∃ after, after.gIonAllocContext = some { context with
          list := (pallocLoop context.iommuFlag context.list allocator.held 0 requests).1 } ∧
      after.held = (pallocLoop context.iommuFlag context.list allocator.held 0 requests).2.1 ∧
      seanIonAllocPalloc allocator (some requests) = .ok (after,
        (pallocLoop context.iommuFlag context.list allocator.held 0 requests).2.2.2,
        (pallocLoop context.iommuFlag context.list allocator.held 0 requests).2.2.1) := by
  cases requests with
  | nil => exact absurd rfl some_request
  | cons request rest =>
    refine ⟨⟨_, false, _⟩, rfl, rfl, ?_⟩
    simp [seanIonAllocPalloc, pthreadMutexLock, pthreadMutexUnlock, free, isOpen, bind, Except.bind,
      pure, Except.pure]

/-- Nodes that were appended are as many as the requests they were made for. -/
theorem Served.count {allocator after : Allocator} {requests : List (MemBufInfo × Outcome)}
    {infos : List MemBufInfo} {context : IonAllocContext} {nodes : List BufferNode}
    (served : Served allocator after requests infos)
    (isOpen : allocator.gIonAllocContext = some context)
    (appended : after.gIonAllocContext = some { context with list := context.list ++ nodes }) :
    nodes.length = requests.length := by
  obtain ⟨context', nodes', isOpen', appended', -, fills⟩ := served
  have same : context' = context := Option.some.inj (isOpen'.symm.trans isOpen)
  subst same
  have lists := congrArg IonAllocContext.list (Option.some.inj (appended'.symm.trans appended))
  have grown : nodes' = nodes := List.append_cancel_left lists
  rw [← grown]
  exact fills.made.length_eq.symm

/-- Without a context nothing is served, and the call that asks for something says
otherwise or waits. -/
theorem all_or_nothing_closed (allocator : Allocator) (requests : List (MemBufInfo × Outcome))
    (closed : allocator.gIonAllocContext = none) :
    AllOrNothing allocator requests ↔ requests = [] := by
  have unserved : ∀ after infos, ¬ Served allocator after requests infos := by
    rintro after infos ⟨context, _, isOpen, -⟩
    exact Option.some_ne_none context (isOpen.symm.trans closed)
  constructor
  · rintro ⟨after, infos, ret, called, zero, -⟩
    by_contra asked
    obtain ⟨request, rest, rfl⟩ := List.exists_cons_of_ne_nil asked
    apply unserved after infos
    apply zero.mp
    cases lock : allocator.gIonMutexAlloc with
    | true => simp [seanIonAllocPalloc, pthreadMutexLock, lock, bind, Except.bind] at called
    | false =>
      simp [seanIonAllocPalloc, pthreadMutexLock, lock, closed, bind, Except.bind, pure,
        Except.pure] at called
      exact called.2.2.symm
  · rintro rfl
    refine ⟨allocator, [], -1, rfl, iff_of_false (by decide) (unserved _ _), fun _ => ⟨rfl, rfl⟩⟩

/-- With a context, a call for no requests is not the success it stands for. -/
theorem all_or_nothing_empty (allocator : Allocator) (context : IonAllocContext)
    (isOpen : allocator.gIonAllocContext = some context) : ¬ AllOrNothing allocator [] := by
  rintro ⟨after, infos, ret, called, zero, -⟩
  obtain ⟨rfl, rfl, rfl⟩ : allocator = after ∧ [] = infos ∧ -1 = ret := by
    simpa [seanIonAllocPalloc] using called
  have served : Served allocator allocator [] [] :=
    ⟨context, [], isOpen, by simp [isOpen], rfl, List.Forall₂.nil, rfl⟩
  exact absurd (zero.mpr served) (by decide)

/-- Behind a free lock and with a context, a call for some requests is all or nothing
exactly when all succeed or the first is refused its handle. -/
theorem all_or_nothing_open (allocator : Allocator) (context : IonAllocContext)
    (requests : List (MemBufInfo × Outcome)) (asked : requests ≠ [])
    (isOpen : allocator.gIonAllocContext = some context)
    (free : allocator.gIonMutexAlloc = false) :
    AllOrNothing allocator requests ↔
      (∀ request ∈ requests, Succeeds context.iommuFlag request) ∨
        ∃ first rest, requests = first :: rest ∧ first.1.bufferSize ≠ 0 ∧ first.2.alloc ≠ 0 := by
  obtain ⟨after, list, held, called⟩ := palloc_open allocator context requests asked isOpen free
  by_cases succeed : ∀ request ∈ requests, Succeeds context.iommuFlag request
  · obtain ⟨nodes, infos, looped, fills⟩ := palloc_loop_succeeds context.iommuFlag requests
      context.list allocator.held succeed
    rw [looped] at list held called
    have served : Served allocator after requests infos :=
      ⟨context, nodes, isOpen, list, held, fills⟩
    exact iff_of_true ⟨after, infos, 0, called, iff_of_true rfl served,
      fun unserved => absurd served unserved⟩ (Or.inl succeed)
  · obtain ⟨nodes, kept, ret, infos, looped, fewer, clean⟩ := palloc_loop_fails context.iommuFlag
      requests context.list allocator.held (by simpa using succeed)
    rw [looped] at list held called
    have unserved : ¬ Served allocator after requests infos := fun served =>
      absurd (served.count isOpen list) (Nat.ne_of_lt fewer)
    rw [← clean, or_iff_right succeed]
    constructor
    · rintro ⟨after', infos', ret', called', zero, unchanged⟩
      obtain ⟨rfl, rfl, rfl⟩ : after = after' ∧ infos = infos' ∧ ret = ret' := by
        simpa using called.symm.trans called'
      obtain ⟨sameList, sameHeld⟩ := unchanged unserved
      refine ⟨?_, mt zero.mp unserved, held.symm.trans sameHeld⟩
      rw [list, isOpen] at sameList
      simpa using sameList
    · rintro ⟨rfl, nonzero, rfl⟩
      refine ⟨after, infos, ret, called, iff_of_false nonzero unserved, fun _ => ⟨?_, held⟩⟩
      rw [list, isOpen]
      simp

/-- Allocation is all or nothing exactly when all requests succeed or the first one is
refused its handle. -/
theorem all_or_nothing_iff (allocator : Allocator) (requests : List (MemBufInfo × Outcome)) :
    AllOrNothing allocator requests ↔ Clean allocator requests := by
  unfold Clean
  cases context : allocator.gIonAllocContext with
  | none => exact all_or_nothing_closed allocator requests context
  | some context' =>
    by_cases asked : requests = []
    · subst asked
      exact iff_of_false (all_or_nothing_empty allocator context' context) (fun clean => clean.1 rfl)
    cases lock : allocator.gIonMutexAlloc with
    | true =>
      refine iff_of_false ?_ (fun clean => Bool.noConfusion clean.2.1)
      rintro ⟨_, _, _, called, -⟩
      obtain ⟨request, rest, rfl⟩ := List.exists_cons_of_ne_nil asked
      simp [seanIonAllocPalloc, pthreadMutexLock, lock, bind, Except.bind] at called
    | false =>
      simp only [ne_eq, asked, not_false_eq_true, true_and]
      exact all_or_nothing_open allocator context' requests asked context lock

/-- One request of `main` whose descriptor is refused: the handle stays, and the
call is neither all nor nothing. -/
theorem refused_descriptor_keeps_handle :
    ¬ AllOrNothing ⟨some ⟨3, 4, [], 1, 1⟩, false, ⟨[], [], []⟩⟩
      [(⟨0, 0, 0, 0x200000⟩, ⟨0, 7, -1, 0, none, 0, 0, 0, 0, 0, true, 0, 0⟩)] := by
  rw [all_or_nothing_open _ ⟨3, 4, [], 1, 1⟩ _ (List.cons_ne_nil _ _) rfl rfl]
  rintro (succeed | ⟨first, rest, same, -, refused⟩)
  · exact absurd (succeed _ List.mem_cons_self).map (by decide)
  · obtain ⟨rfl, -⟩ := List.cons.inj same
    exact refused rfl

end IotCamera.Ion
