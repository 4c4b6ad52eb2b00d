import Mathlib.Data.List.FinRange
import IotCamera.Base.Memory

/-!
# The pool of decoder streams

`sample_adec.c`: the streams handed to the decoder are nodes of two lists. The
feeder takes the first idle stream, fills it and moves it to the list of streams in
use; a callback of the decoder moves the stream with a given id back to the end of
the idle list. The three functions hold the manager's lock throughout, so calls from
both threads are one sequence.

The list macros are those of the Linux list: `list_move_tail` takes a node out of
the list it is in and puts it at the end of another. A stream is known by its
address and has an id; a null pointer is zero.
-/

namespace IotCamera.Adec

open Memory

/-- A node, by the address and the id of its stream. -/
structure SampleADecStreamNode where
  mAStream : Word
  mId : Word
  deriving DecidableEq, Repr

structure SampleADecStreamManager where
  mIdleList : List SampleADecStreamNode
  mUsingList : List SampleADecStreamNode
  mNodeCnt : Word
  deriving DecidableEq, Repr

namespace SampleADecStreamManager

/-- The first idle stream, which stays where it is. -/
def prefetchFirstIdleStream (manager : SampleADecStreamManager) : Word :=
  match manager.mIdleList with
  | [] => 0
  | first :: _ => first.mAStream

/-- Put a stream to use, which must be the first idle one. -/
def useStream (manager : SampleADecStreamManager) (pStream : Word) : SampleADecStreamManager × Int :=
  if pStream = 0 then (manager, -1)
  else
    match manager.mIdleList with
    | [] => (manager, -1)
    | first :: rest =>
      if first.mAStream = pStream then
        ({ manager with mIdleList := rest, mUsingList := manager.mUsingList ++ [first] }, 0)
      else (manager, -1)

/-- Take the first stream with an id out of a list. -/
def takeStream (nStreamId : Word) :
    List SampleADecStreamNode → Option (SampleADecStreamNode × List SampleADecStreamNode)
  | [] => none
  | entry :: rest =>
    if entry.mId = nStreamId then some (entry, rest)
    else (takeStream nStreamId rest).map fun taken => (taken.1, entry :: taken.2)

/-- Make a stream in use idle again. -/
def releaseStream (manager : SampleADecStreamManager) (nStreamId : Word) :
    SampleADecStreamManager × Int :=
  match takeStream nStreamId manager.mUsingList with
  | none => (manager, -1)
  | some (entry, others) =>
    ({ manager with mIdleList := manager.mIdleList ++ [entry], mUsingList := others }, 0)

end SampleADecStreamManager

open SampleADecStreamManager

/-- How many nodes an `int` asks for. -/
def nodeCount (nStreamNum : Word) : Nat := nStreamNum.toInt.toNat

/-- The blocks that `malloc` returns for the nodes: none is null, and no two are at one
address. -/
structure Blocks (count : Nat) where
  address : Fin count → Word
  nonnull : ∀ index, address index ≠ 0
  apart : Function.Injective address

/-- The node of a pass of the initialising loop. -/
def Blocks.node {count : Nat} (blocks : Blocks count) (index : Fin count) : SampleADecStreamNode :=
  ⟨blocks.address index, BitVec.ofNat 32 index⟩

/-- A manager with all its streams idle, each added at the end. -/
def initSampleADecStreamManager (nStreamNum : Word) (blocks : Blocks (nodeCount nStreamNum)) :
    SampleADecStreamManager :=
  let mIdleList := (List.finRange (nodeCount nStreamNum)).foldl
    (fun list index => list ++ [blocks.node index]) []
  ⟨mIdleList, [], nStreamNum⟩

/-- A call of the manager. -/
inductive Call where
  | prefetchFirstIdleStream
  | useStream (pStream : Word)
  | releaseStream (nStreamId : Word)
  deriving DecidableEq, Repr

/-- The manager after a call. -/
def SampleADecStreamManager.call (manager : SampleADecStreamManager) : Call → SampleADecStreamManager
  | .prefetchFirstIdleStream => manager
  | .useStream pStream => (manager.useStream pStream).1
  | .releaseStream nStreamId => (manager.releaseStream nStreamId).1

/-- The ids of the streams that a sequence of calls released, in order. -/
def released (manager : SampleADecStreamManager) : List Call → List Word
  | [] => []
  | .releaseStream nStreamId :: rest =>
    if (manager.releaseStream nStreamId).2 = 0 then
      nStreamId :: released (manager.call (.releaseStream nStreamId)) rest
    else released (manager.call (.releaseStream nStreamId)) rest
  | other :: rest => released (manager.call other) rest

/-- How many streams a sequence of calls put to use. -/
def uses (manager : SampleADecStreamManager) : List Call → Nat
  | [] => 0
  | .useStream pStream :: rest =>
    if (manager.useStream pStream).2 = 0 then uses (manager.call (.useStream pStream)) rest + 1
    else uses (manager.call (.useStream pStream)) rest
  | other :: rest => uses (manager.call other) rest

/-- A stream is taken out of the place where its id stands first. -/
theorem take_stream_cases (nStreamId : Word) (list : List SampleADecStreamNode) :
    (∃ before entry after, list = before ++ entry :: after ∧ entry.mId = nStreamId ∧
        takeStream nStreamId list = some (entry, before ++ after)) ∨
      ((∀ entry ∈ list, entry.mId ≠ nStreamId) ∧ takeStream nStreamId list = none) := by
  induction list with
  | nil => exact Or.inr ⟨by simp, rfl⟩
  | cons first rest inductionHypothesis =>
    by_cases found : first.mId = nStreamId
    · exact Or.inl ⟨[], first, rest, rfl, found, by rw [takeStream, if_pos found]; rfl⟩
    · rcases inductionHypothesis with ⟨before, entry, after, split, named, taken⟩ | ⟨absent, taken⟩
      · refine Or.inl ⟨first :: before, entry, after, by rw [split]; rfl, named, ?_⟩
        rw [takeStream, if_neg found, taken]
        rfl
      · refine Or.inr ⟨?_, by rw [takeStream, if_neg found, taken]; rfl⟩
        intro entry member
        rcases List.mem_cons.mp member with rfl | inside
        · exact found
        · exact absent entry inside

section
variable (manager : SampleADecStreamManager)

/-- What putting a stream to use can do. -/
theorem use_stream_cases (pStream : Word) :
    (∃ first rest, pStream ≠ 0 ∧ manager.mIdleList = first :: rest ∧ first.mAStream = pStream ∧
        manager.useStream pStream =
          (⟨rest, manager.mUsingList ++ [first], manager.mNodeCnt⟩, 0)) ∨
      (¬ (pStream ≠ 0 ∧ manager.prefetchFirstIdleStream = pStream) ∧
        manager.useStream pStream = (manager, -1)) := by
  by_cases null : pStream = 0
  · exact Or.inr ⟨fun given => given.1 null, by rw [useStream, if_pos null]⟩
  cases idle : manager.mIdleList with
  | nil =>
    refine Or.inr ⟨?_, by rw [useStream, if_neg null, idle]⟩
    rintro ⟨-, same⟩
    rw [prefetchFirstIdleStream, idle] at same
    exact null same.symm
  | cons first rest =>
    by_cases same : first.mAStream = pStream
    · refine Or.inl ⟨first, rest, null, rfl, same, ?_⟩
      rw [useStream, if_neg null, idle]
      exact if_pos same
    · refine Or.inr ⟨?_, ?_⟩
      · rintro ⟨-, prefetched⟩
        rw [prefetchFirstIdleStream, idle] at prefetched
        exact same prefetched
      · rw [useStream, if_neg null, idle]
        exact if_neg same

/-- What releasing a stream can do. -/
theorem release_stream_cases (nStreamId : Word) :
    (∃ before entry after, manager.mUsingList = before ++ entry :: after ∧
        entry.mId = nStreamId ∧ manager.releaseStream nStreamId =
          (⟨manager.mIdleList ++ [entry], before ++ after, manager.mNodeCnt⟩, 0)) ∨
      ((∀ entry ∈ manager.mUsingList, entry.mId ≠ nStreamId) ∧
        manager.releaseStream nStreamId = (manager, -1)) := by
  rcases take_stream_cases nStreamId manager.mUsingList with
    ⟨before, entry, after, split, named, taken⟩ | ⟨absent, taken⟩
  · exact Or.inl ⟨before, entry, after, split, named, by rw [releaseStream, taken]⟩
  · exact Or.inr ⟨absent, by rw [releaseStream, taken]⟩

/-- The streams of both lists. -/
def SampleADecStreamManager.streams : List SampleADecStreamNode :=
  manager.mIdleList ++ manager.mUsingList

/-- A call moves streams between the lists and loses none. -/
theorem call_streams (call : Call) : (manager.call call).streams.Perm manager.streams := by
  cases call with
  | prefetchFirstIdleStream => exact List.Perm.refl _
  | useStream pStream =>
    rw [SampleADecStreamManager.call]
    rcases use_stream_cases manager pStream with ⟨first, rest, -, idle, -, used⟩ | ⟨-, used⟩
    · simp only [used, streams, idle]
      have moved : (rest ++ (manager.mUsingList ++ [first])).Perm
          (first :: (rest ++ manager.mUsingList)) := by
        rw [← List.append_assoc]
        exact List.perm_append_singleton first _
      exact moved
    · rw [used]
  | releaseStream nStreamId =>
    rw [SampleADecStreamManager.call]
    rcases release_stream_cases manager nStreamId with ⟨before, entry, after, split, -, freed⟩ | ⟨-, freed⟩
    · simp only [freed, streams, split]
      rw [List.append_assoc, List.singleton_append]
      exact List.Perm.append_left _ List.perm_middle.symm
    · rw [freed]

/-- So does a sequence of calls. -/
theorem calls_streams (calls : List Call) :
    (calls.foldl SampleADecStreamManager.call manager).streams.Perm manager.streams := by
  induction calls generalizing manager with
  | nil => exact List.Perm.refl _
  | cons first rest inductionHypothesis =>
    exact (inductionHypothesis (manager.call first)).trans (call_streams manager first)

/-- The idle list is a queue: streams leave it at its front and come back at its end. -/
theorem idle_in_release_order (calls : List Call) :
    (calls.foldl SampleADecStreamManager.call manager).mIdleList.map SampleADecStreamNode.mId =
      (manager.mIdleList.map SampleADecStreamNode.mId ++ released manager calls).drop
        (uses manager calls) := by
  induction calls generalizing manager with
  | nil => simp [released, uses]
  | cons first rest inductionHypothesis =>
    rw [List.foldl_cons, inductionHypothesis]
    cases first with
    | prefetchFirstIdleStream => rfl
    | useStream pStream =>
      rcases use_stream_cases manager pStream with ⟨first, others, -, idle, -, used⟩ | ⟨-, used⟩
      · simp [released, uses, SampleADecStreamManager.call, used, idle]
      · simp [released, uses, SampleADecStreamManager.call, used]
    | releaseStream nStreamId =>
      rcases release_stream_cases manager nStreamId with
        ⟨before, entry, after, -, named, freed⟩ | ⟨-, freed⟩
      · simp [released, uses, SampleADecStreamManager.call, freed, named]
      · simp [released, uses, SampleADecStreamManager.call, freed]

/-- Only the first idle stream can be put to use. -/
theorem use_stream_iff (pStream : Word) : (manager.useStream pStream).2 = 0 ↔
    pStream ≠ 0 ∧ manager.prefetchFirstIdleStream = pStream := by
  rcases use_stream_cases manager pStream with ⟨first, rest, given, idle, same, used⟩ | ⟨other, used⟩
  · refine iff_of_true (by rw [used]) ⟨given, ?_⟩
    rw [prefetchFirstIdleStream, idle]
    exact same
  · refine iff_of_false ?_ other
    rw [used]
    exact Int.neg_ne_zero.mpr Int.one_ne_zero

/-- Only a stream in use can be released. -/
theorem release_stream_iff (nStreamId : Word) : (manager.releaseStream nStreamId).2 = 0 ↔
    ∃ entry ∈ manager.mUsingList, entry.mId = nStreamId := by
  rcases release_stream_cases manager nStreamId with
    ⟨before, entry, after, split, named, freed⟩ | ⟨absent, freed⟩
  · exact iff_of_true (by rw [freed]) ⟨entry, by simp [split], named⟩
  · refine iff_of_false ?_ ?_
    · rw [freed]
      exact Int.neg_ne_zero.mpr Int.one_ne_zero
    · rintro ⟨entry, member, named⟩
      exact absent entry member named

/-- A stream that is not put to use leaves everything as it was. -/
theorem use_stream_refused (pStream : Word) (refused : (manager.useStream pStream).2 ≠ 0) :
    manager.useStream pStream = (manager, -1) := by
  rcases use_stream_cases manager pStream with ⟨_, _, -, -, -, used⟩ | ⟨-, used⟩
  · exact absurd (by rw [used]) refused
  · exact used

/-- So does one that is not released. -/
theorem release_stream_refused (nStreamId : Word)
    (refused : (manager.releaseStream nStreamId).2 ≠ 0) :
    manager.releaseStream nStreamId = (manager, -1) := by
  rcases release_stream_cases manager nStreamId with ⟨_, _, _, -, -, freed⟩ | ⟨-, freed⟩
  · exact absurd (by rw [freed]) refused
  · exact freed

end

section
variable (nStreamNum : Word) (blocks : Blocks (nodeCount nStreamNum))

/-- At first all nodes are idle. -/
theorem init_idle : (initSampleADecStreamManager nStreamNum blocks).mIdleList =
    (List.finRange (nodeCount nStreamNum)).map blocks.node := by
  have appended : ∀ (indices : List (Fin (nodeCount nStreamNum))) (list : List SampleADecStreamNode),
      indices.foldl (fun list index => list ++ [blocks.node index]) list =
        list ++ indices.map blocks.node := by
    intro indices
    induction indices with
    | nil => simp
    | cons first rest inductionHypothesis =>
      intro list
      rw [List.foldl_cons, inductionHypothesis]
      simp
  exact appended _ []

/-- The nodes of a new pool are those of its blocks. -/
theorem init_streams : (initSampleADecStreamManager nStreamNum blocks).streams =
    (List.finRange (nodeCount nStreamNum)).map blocks.node := by
  rw [streams, init_idle]
  exact List.append_nil _

/-- An `int` does not count past the ids of 32 bits. -/
theorem node_count_lt : nodeCount nStreamNum < 2 ^ 32 := by
  have bound := BitVec.toInt_lt (x := nStreamNum)
  unfold nodeCount
  omega

/-- The nodes are numbered in order. -/
theorem node_ids : (List.finRange (nodeCount nStreamNum)).map (fun index => (blocks.node index).mId) =
    (List.range (nodeCount nStreamNum)).map (BitVec.ofNat 32) := by
  rw [← List.map_coe_finRange_eq_range, List.map_map]
  rfl

/-- The ids count up from zero without coming round. -/
theorem ids_nodup : ((List.range (nodeCount nStreamNum)).map (BitVec.ofNat 32)).Nodup := by
  refine List.Nodup.map_on ?_ List.nodup_range
  intro first firstIn second secondIn same
  have bound := node_count_lt nStreamNum
  have firstBound : first < 2 ^ 32 := lt_trans (List.mem_range.mp firstIn) bound
  have secondBound : second < 2 ^ 32 := lt_trans (List.mem_range.mp secondIn) bound
  have values := congrArg BitVec.toNat same
  rwa [BitVec.toNat_ofNat, BitVec.toNat_ofNat, Nat.mod_eq_of_lt firstBound,
    Nat.mod_eq_of_lt secondBound] at values

/-- The manager after a sequence of calls on a new one. -/
def after (calls : List Call) : SampleADecStreamManager :=
  calls.foldl SampleADecStreamManager.call (initSampleADecStreamManager nStreamNum blocks)

/-- The two lists hold the nodes that were made. -/
theorem after_nodes (calls : List Call) : (after nStreamNum blocks calls).streams.Perm
    ((List.finRange (nodeCount nStreamNum)).map blocks.node) := by
  have kept := calls_streams (initSampleADecStreamManager nStreamNum blocks) calls
  rwa [init_streams] at kept

/-- After any calls the pool has each of its numbers once. -/
theorem after_ids (calls : List Call) :
    ((after nStreamNum blocks calls).streams.map SampleADecStreamNode.mId).Perm
      ((List.range (nodeCount nStreamNum)).map (BitVec.ofNat 32)) := by
  have ids := (after_nodes nStreamNum blocks calls).map SampleADecStreamNode.mId
  rw [List.map_map] at ids
  exact (node_ids nStreamNum blocks) ▸ ids

/-- There is an idle stream exactly when one can be prefetched. -/
theorem prefetch_null_iff (calls : List Call) :
    (after nStreamNum blocks calls).prefetchFirstIdleStream = 0 ↔
      (after nStreamNum blocks calls).mIdleList = [] := by
  rw [prefetchFirstIdleStream]
  cases idle : (after nStreamNum blocks calls).mIdleList with
  | nil => exact iff_of_true rfl rfl
  | cons first rest =>
    have member : first ∈ (after nStreamNum blocks calls).streams := by simp [streams, idle]
    obtain ⟨index, -, rfl⟩ := List.mem_map.mp
      ((after_nodes nStreamNum blocks calls).mem_iff.mp member)
    exact iff_of_false (blocks.nonnull index) (List.cons_ne_nil _ _)

/-- What a manager of `n` nodes is worth after a sequence of calls. -/
structure Conserves (calls : List Call) (manager : SampleADecStreamManager) : Prop where
  /-- Both lists together hold each node, -/
  nodes : manager.streams.Perm ((List.finRange (nodeCount nStreamNum)).map blocks.node)
  /-- with the ids from 0 to `n` - 1, -/
  ids : (manager.streams.map SampleADecStreamNode.mId).Perm
    ((List.range (nodeCount nStreamNum)).map (BitVec.ofNat 32))
  /-- once. -/
  once : (manager.streams.map SampleADecStreamNode.mId).Nodup
  /-- A call that fails returns -1 and changes nothing. -/
  useRefused : ∀ pStream, (manager.useStream pStream).2 ≠ 0 →
    manager.useStream pStream = (manager, -1)
  releaseRefused : ∀ nStreamId, (manager.releaseStream nStreamId).2 ≠ 0 →
    manager.releaseStream nStreamId = (manager, -1)
  /-- A stream can be prefetched whenever one is idle, -/
  prefetched : manager.prefetchFirstIdleStream = 0 ↔ manager.mIdleList = []
  /-- and it is the one that can be put to use. -/
  used : ∀ pStream, (manager.useStream pStream).2 = 0 ↔
    pStream ≠ 0 ∧ manager.prefetchFirstIdleStream = pStream
  /-- The streams in use are those that can be released. -/
  freed : ∀ nStreamId, (manager.releaseStream nStreamId).2 = 0 ↔
    ∃ entry ∈ manager.mUsingList, entry.mId = nStreamId
  /-- The idle streams are the nodes and, in order, the streams released since, less those
  that were put to use from the front. -/
  order : manager.mIdleList.map SampleADecStreamNode.mId =
    ((List.range (nodeCount nStreamNum)).map (BitVec.ofNat 32) ++
      released (initSampleADecStreamManager nStreamNum blocks) calls).drop
        (uses (initSampleADecStreamManager nStreamNum blocks) calls)

/-- No sequence of calls loses or doubles a stream, and streams are used again in the
order in which they were released. -/
theorem stream_pool_conserved (calls : List Call) :
    Conserves nStreamNum blocks calls (after nStreamNum blocks calls) where
  nodes := after_nodes nStreamNum blocks calls
  ids := after_ids nStreamNum blocks calls
  once := (after_ids nStreamNum blocks calls).nodup_iff.mpr (ids_nodup nStreamNum)
  useRefused := use_stream_refused _
  releaseRefused := release_stream_refused _
  prefetched := prefetch_null_iff nStreamNum blocks calls
  used := use_stream_iff _
  freed := release_stream_iff _
  order := by
    have queue := idle_in_release_order (initSampleADecStreamManager nStreamNum blocks) calls
    rw [init_idle, List.map_map] at queue
    exact (node_ids nStreamNum blocks) ▸ queue

end

/-- Memory for two nodes. -/
def twoBlocks : Blocks (nodeCount 2) where
  address index := BitVec.ofNat 32 (0x1000 + 0x40 * index)
  nonnull := by decide
  apart := by
    intro first second
    revert first second
    decide

/-- Released out of order, the second stream is the first to be idle again. -/
example : (after 2 twoBlocks [.useStream 0x1000, .useStream 0x1040, .releaseStream 1,
    .releaseStream 0, .releaseStream 0]).mIdleList.map SampleADecStreamNode.mId = [1, 0] := by decide

end IotCamera.Adec
