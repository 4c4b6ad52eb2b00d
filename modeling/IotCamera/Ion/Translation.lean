import Mathlib.Data.List.Infix
import Mathlib.Data.List.Pairwise
import IotCamera.Ion.Allocation
import IotCamera.Ion.Locking

/-!
# Translating addresses of buffers

`sean_ion_alloc_vir2phy_cpu` and `sean_ion_alloc_phy2vir_cpu` scan the context's list
for a buffer whose range holds the address. The list is changed by allocating and by
freeing, in any order. What is live is said here without the list: a call that serves
requests adds the buffers that were granted, up to the first request that was not, and a
call that gives addresses back removes the buffers that begin there.

Where buffers lie is the kernel's choice. It is assumed that the live ones are not empty,
do not wrap around the end of the address space, and do not overlap; and that `mmap`, left
to choose an address, does not choose zero. A range may end at the last address. The sum
in the test of the scan is then zero, and the scan does not find the buffer.
-/

namespace IotCamera.Ion

open Memory

/-- Where a buffer lies. -/
structure Buffer where
  vir : Word
  phy : Word
  size : Word
  deriving DecidableEq, Repr

def BufferNode.buffer (node : BufferNode) : Buffer := ⟨node.vir, node.phy, node.size⟩

/-- The buffer that a request was granted, if every answer was a success. -/
def granted (iommuFlag : Int) (info : MemBufInfo) (outcome : Outcome) : Option Buffer :=
  match outcome.mmap, physicalAddress iommuFlag outcome with
  | some vir, .ok phy =>
    if info.bufferSize ≠ 0 ∧ outcome.alloc = 0 ∧ outcome.map = 0 ∧ outcome.malloc = true then
      some ⟨vir, phy, info.bufferSize⟩
    else none
  | _, _ => none

/-- The buffers granted before the first request that was not. -/
def grants (iommuFlag : Int) : List (MemBufInfo × Outcome) → List Buffer
  | [] => []
  | (info, outcome) :: rest =>
    match granted iommuFlag info outcome with
    | some buffer => buffer :: grants iommuFlag rest
    | none => []

/-- Give one address back. -/
def release (live : List Buffer) (info : MemBufInfo) : List Buffer :=
  if info.virAddr = 0 then live else live.filter (·.vir ≠ info.virAddr)

/-- The live buffers after a call. -/
def ledger (iommuFlag : Int) (live : List Buffer) : Operation → List Buffer
  | .palloc (some requests) => live ++ grants iommuFlag requests
  | .pfree (some requests) => (requests.map Prod.fst).foldl release live
  | _ => live

/-- An address lies in the range of a buffer that begins at `start`. -/
def Buffer.Covers (start : Buffer → Word) (buffer : Buffer) (address : Word) : Prop :=
  (start buffer).toNat ≤ address.toNat ∧ address.toNat < (start buffer).toNat + buffer.size.toNat

/-- The ranges that begin at `start` neither wrap nor overlap. -/
structure Apart (start : Buffer → Word) (live : List Buffer) : Prop where
  within : ∀ buffer ∈ live, (start buffer).toNat + buffer.size.toNat ≤ 2 ^ 32
  apart : live.Pairwise fun first second =>
    (start first).toNat + first.size.toNat ≤ (start second).toNat ∨
      (start second).toNat + second.size.toNat ≤ (start first).toNat

/-- Where the kernel puts live buffers. -/
structure Placed (live : List Buffer) : Prop where
  bytes : ∀ buffer ∈ live, buffer.size ≠ 0
  mapped : ∀ buffer ∈ live, buffer.vir ≠ 0
  virtual : Apart Buffer.vir live
  physical : Apart Buffer.phy live

instance (start : Buffer → Word) (live : List Buffer) : Decidable (Apart start live) :=
  decidable_of_iff (_ ∧ _) ⟨fun parts => ⟨parts.1, parts.2⟩, fun apart => ⟨apart.within, apart.apart⟩⟩

instance (live : List Buffer) : Decidable (Placed live) :=
  decidable_of_iff (_ ∧ _ ∧ _ ∧ _)
    ⟨fun parts => ⟨parts.1, parts.2.1, parts.2.2.1, parts.2.2.2⟩,
      fun placed => ⟨placed.bytes, placed.mapped, placed.virtual, placed.physical⟩⟩

/-- The test of the scan, with its sum in the width of an address. -/
def inRange (start : Buffer → Word) (pbuf : Word) (buffer : Buffer) : Bool :=
  (start buffer).toNat ≤ pbuf.toNat ∧ pbuf.toNat < (start buffer + buffer.size).toNat

/-- The scan of both translations, over any list of buffers. -/
def translated (start target : Buffer → Word) (live : List Buffer) (pbuf : Word) : Word :=
  match live.find? (inRange start pbuf) with
  | some buffer => target buffer + pbuf - start buffer
  | none => 0

section Scan
variable (start target : Buffer → Word) (live : List Buffer) (apart : Apart start live)

include apart

/-- The test is that the buffer covers the address and ends before the last one. -/
theorem in_range_iff (buffer : Buffer) (member : buffer ∈ live) (pbuf : Word) :
    inRange start pbuf buffer = true ↔
      buffer.Covers start pbuf ∧ (start buffer).toNat + buffer.size.toNat < 2 ^ 32 := by
  have within := apart.within buffer member
  rw [inRange, decide_eq_true_eq, BitVec.toNat_add, Buffer.Covers]
  by_cases before : (start buffer).toNat + buffer.size.toNat < 2 ^ 32
  · rw [Nat.mod_eq_of_lt before, and_iff_left before]
  · have wrapped : ((start buffer).toNat + buffer.size.toNat) % 2 ^ 32 = 0 := by
      rw [Nat.le_antisymm within (Nat.le_of_not_lt before), Nat.mod_self]
    rw [wrapped]
    omega

/-- Two live buffers that cover an address are one. -/
theorem covers_unique (first second : Buffer) (pbuf : Word) (here : first ∈ live) (there : second ∈ live)
    (covered : first.Covers start pbuf) (also : second.Covers start pbuf) : first = second := by
  by_contra different
  have : Std.Symm fun first second : Buffer =>
      (start first).toNat + first.size.toNat ≤ (start second).toNat ∨
        (start second).toNat + second.size.toNat ≤ (start first).toNat := ⟨fun _ _ => Or.symm⟩
  have separate := apart.apart.forall here there different
  obtain ⟨lower, upper⟩ := covered
  obtain ⟨least, most⟩ := also
  omega

/-- The scan finds the buffer that covers the address, if it ends before the last one. -/
theorem translated_inside (buffer : Buffer) (member : buffer ∈ live) (pbuf : Word)
    (covers : buffer.Covers start pbuf)
    (before : (start buffer).toNat + buffer.size.toNat < 2 ^ 32) :
    translated start target live pbuf = target buffer + pbuf - start buffer := by
  have found : live.find? (inRange start pbuf) = some buffer := by
    cases scan : live.find? (inRange start pbuf) with
    | none =>
      have missed := List.find?_eq_none.mp scan buffer member
      rw [in_range_iff start live apart buffer member] at missed
      exact absurd ⟨covers, before⟩ missed
    | some other =>
      have tested := List.find?_some scan
      have listed := List.mem_of_find?_eq_some scan
      rw [in_range_iff start live apart other listed] at tested
      rw [covers_unique start live apart other buffer pbuf listed member tested.1 covers]
  rw [translated, found]

/-- The scan of an address that no buffer covers which ends before the last one, ends
with zero. -/
theorem translated_outside (pbuf : Word)
    (outside : ∀ buffer ∈ live, buffer.Covers start pbuf →
      2 ^ 32 ≤ (start buffer).toNat + buffer.size.toNat) :
    translated start target live pbuf = 0 := by
  have missed : live.find? (inRange start pbuf) = none := by
    rw [List.find?_eq_none]
    intro buffer member
    rw [in_range_iff start live apart buffer member]
    rintro ⟨covers, before⟩
    exact absurd before (Nat.not_lt.mpr (outside buffer member covers))
  rw [translated, missed]

/-- An offset below the size does not wrap. -/
theorem offset_value (buffer : Buffer) (member : buffer ∈ live) (offset : Nat)
    (inside : offset < buffer.size.toNat) :
    (start buffer + BitVec.ofNat 32 offset).toNat = (start buffer).toNat + offset := by
  have within := apart.within buffer member
  rw [BitVec.toNat_add, BitVec.toNat_ofNat]
  omega

/-- The address at an offset below the size is covered. -/
theorem offset_covered (buffer : Buffer) (member : buffer ∈ live) (offset : Nat)
    (inside : offset < buffer.size.toNat) :
    buffer.Covers start (start buffer + BitVec.ofNat 32 offset) := by
  rw [Buffer.Covers, offset_value start live apart buffer member offset inside]
  omega

/-- The offsets of a buffer are translated to the same offsets exactly when its range
ends before the last address, or when it is the last byte and leads to zero, which is
also what the scan gives for a buffer that it misses. -/
theorem translated_offsets_iff (buffer : Buffer) (member : buffer ∈ live) (bytes : buffer.size ≠ 0) :
    (∀ offset < buffer.size.toNat,
      translated start target live (start buffer + BitVec.ofNat 32 offset) =
        target buffer + BitVec.ofNat 32 offset) ↔
      (start buffer).toNat + buffer.size.toNat < 2 ^ 32 ∨ buffer.size = 1 ∧ target buffer = 0 := by
  have nonempty : 0 < buffer.size.toNat :=
    Nat.pos_of_ne_zero fun zero => bytes (BitVec.eq_of_toNat_eq zero)
  by_cases before : (start buffer).toNat + buffer.size.toNat < 2 ^ 32
  · refine iff_of_true ?_ (Or.inl before)
    intro offset inside
    have covers := offset_covered start live apart buffer member offset inside
    rw [translated_inside start target live apart buffer member _ covers before, ← BitVec.add_assoc,
      BitVec.add_comm (target buffer), BitVec.add_assoc, BitVec.add_comm, BitVec.add_sub_cancel]
  · -- The only buffer that covers an offset is this one, and its test fails.
    have missed : ∀ offset < buffer.size.toNat,
        translated start target live (start buffer + BitVec.ofNat 32 offset) = 0 := by
      intro offset inside
      apply translated_outside start target live apart
      intro other listed covered
      have covers := offset_covered start live apart buffer member offset inside
      rw [covers_unique start live apart other buffer _ listed member covered covers]
      exact Nat.le_of_not_lt before
    constructor
    · intro same
      have first : target buffer = 0 := by
        have zero := (missed 0 nonempty).symm.trans (same 0 nonempty)
        simpa using zero.symm
      refine Or.inr ⟨?_, first⟩
      by_contra more
      have second : 1 < buffer.size.toNat :=
        lt_of_le_of_ne nonempty fun one => more (BitVec.eq_of_toNat_eq one.symm)
      have zero := (missed 1 second).symm.trans (same 1 second)
      rw [first] at zero
      cases zero
    · rintro (inside | ⟨one, zero⟩) offset within
      · exact absurd inside before
      · have only : offset = 0 := by
          rw [one] at within
          exact Nat.lt_one_iff.mp within
        rw [missed offset within, zero, only]
        rfl

end Scan

section Granted
variable (iommuFlag : Int) (request : MemBufInfo × Outcome)

/-- A request that succeeds is granted the buffer of its node. -/
theorem granted_succeeds (node : BufferNode) (succeeds : Succeeds iommuFlag request)
    (made : NodeOf iommuFlag request node) :
    granted iommuFlag request.1 request.2 = some node.buffer := by
  obtain ⟨bytes, alloc, map, -, -, malloc⟩ := succeeds
  unfold granted
  rw [made.vir, made.phy]
  simp only
  rw [if_pos ⟨bytes, alloc, map, malloc⟩, BufferNode.buffer, made.size]

/-- A request that fails is granted nothing. -/
theorem granted_fails (fails : ¬ Succeeds iommuFlag request) :
    granted iommuFlag request.1 request.2 = none := by
  unfold granted
  split
  · rename_i vir phy mapped located
    refine if_neg fun answers => fails ?_
    obtain ⟨bytes, alloc, map, malloc⟩ := answers
    refine ⟨bytes, alloc, map, by simp [mapped], ?_, malloc⟩
    by_contra refused
    obtain ⟨ret, unlocated⟩ := physical_address_error iommuFlag request.2 refused
    rw [located] at unlocated
    cases unlocated
  · rfl

end Granted

/-- The loop appends the buffers that were granted. -/
theorem palloc_loop_grants (iommuFlag : Int) (requests : List (MemBufInfo × Outcome))
    (list : List BufferNode) (held : Held) :
    (pallocLoop iommuFlag list held 0 requests).1.map BufferNode.buffer =
      list.map BufferNode.buffer ++ grants iommuFlag requests := by
  induction requests generalizing list held with
  | nil => simp [pallocLoop, grants]
  | cons request rest inductionHypothesis =>
    by_cases first : Succeeds iommuFlag request
    · obtain ⟨node, served, made⟩ := alloc_one_succeeds iommuFlag held 0 request first
      have buffer := granted_succeeds iommuFlag request node first made
      simp only [pallocLoop, served, grants, buffer, inductionHypothesis, List.map_append,
        List.map_cons, List.map_nil, List.append_assoc, List.singleton_append]
    · obtain ⟨kept, ret, refused, -⟩ := alloc_one_fails iommuFlag held request first
      have buffer := granted_fails iommuFlag request first
      simp only [pallocLoop, refused, grants, buffer, List.append_nil]

/-- Where no two elements have one key, removing the first with a key removes all. -/
theorem erase_key {α β : Type*} [DecidableEq β] (key : α → β) (list : List α) (value : β)
    (distinct : list.Pairwise fun first second => key first ≠ key second) :
    list.eraseP (key · = value) = list.filter (key · ≠ value) := by
  induction list with
  | nil => rfl
  | cons first rest inductionHypothesis =>
    obtain ⟨others, following⟩ := List.pairwise_cons.mp distinct
    by_cases here : key first = value
    · have none : ∀ other ∈ rest, (decide (key other ≠ value)) = true := by
        intro other member
        exact decide_eq_true fun same => others other member (here.trans same.symm)
      rw [List.eraseP_cons_of_pos (by simpa using here), List.filter_cons_of_neg (by simpa using here),
        List.filter_eq_self.mpr none]
    · rw [List.eraseP_cons_of_neg (by simpa using here), List.filter_cons_of_pos (by simpa using here),
        inductionHypothesis following]

/-- Buffers that do not overlap begin at different addresses. -/
theorem placed_distinct (live : List Buffer) (placed : Placed live) :
    live.Pairwise fun first second => first.vir ≠ second.vir := by
  apply placed.virtual.apart.imp_of_mem
  intro first second here there separate same
  have bytes : first.size.toNat ≠ 0 := fun zero =>
    placed.bytes first here (BitVec.eq_of_toNat_eq zero)
  have more : second.size.toNat ≠ 0 := fun zero =>
    placed.bytes second there (BitVec.eq_of_toNat_eq zero)
  rw [same] at separate
  omega

/-- Fewer buffers are placed as they were. -/
theorem placed_sublist (live fewer : List Buffer) (placed : Placed live) (sublist : fewer.Sublist live) :
    Placed fewer where
  bytes buffer member := placed.bytes buffer (sublist.subset member)
  mapped buffer member := placed.mapped buffer (sublist.subset member)
  virtual := ⟨fun buffer member => placed.virtual.within buffer (sublist.subset member),
    placed.virtual.apart.sublist sublist⟩
  physical := ⟨fun buffer member => placed.physical.within buffer (sublist.subset member),
    placed.physical.apart.sublist sublist⟩

/-- Giving an address back leaves the others placed. -/
theorem release_placed (live : List Buffer) (info : MemBufInfo) (placed : Placed live) :
    Placed (release live info) := by
  apply placed_sublist live _ placed
  unfold release
  split
  · exact List.Sublist.refl live
  · exact List.filter_sublist

/-- One pass of the freeing loop removes the buffer that begins at the address. -/
theorem free_one_release (list : List BufferNode) (held : Held) (request : MemBufInfo × FreeOutcome)
    (placed : Placed (list.map BufferNode.buffer)) :
    (freeOne (list, held) request).1.map BufferNode.buffer =
      release (list.map BufferNode.buffer) request.1 := by
  obtain ⟨info, outcome⟩ := request
  by_cases null : info.virAddr = 0
  · simp only [freeOne, release, if_pos null]
  have distinct : list.Pairwise fun first second => first.vir ≠ second.vir :=
    (List.pairwise_map (R := fun first second : Buffer => first.vir ≠ second.vir)).mp
      (placed_distinct _ placed)
  have erased : (list.eraseP (·.vir = info.virAddr)).map BufferNode.buffer =
      release (list.map BufferNode.buffer) info := by
    rw [erase_key BufferNode.vir list info.virAddr distinct, release, if_neg null, List.filter_map]
    rfl
  rw [← erased]
  simp only [freeOne, if_neg null]
  cases found : list.find? (·.vir = info.virAddr) with
  | none =>
    have missing : ∀ node ∈ list, ¬ decide (node.vir = info.virAddr) = true :=
      List.find?_eq_none.mp found
    rw [List.eraseP_of_forall_not missing]
  | some node => rfl

/-- The freeing loop releases the addresses in turn. -/
theorem free_loop_release (requests : List (MemBufInfo × FreeOutcome)) (list : List BufferNode)
    (held : Held) (placed : Placed (list.map BufferNode.buffer)) :
    (requests.foldl freeOne (list, held)).1.map BufferNode.buffer =
      (requests.map Prod.fst).foldl release (list.map BufferNode.buffer) := by
  induction requests generalizing list held with
  | nil => rfl
  | cons request rest inductionHypothesis =>
    have freed := free_one_release list held request placed
    have kept : Placed ((freeOne (list, held) request).1.map BufferNode.buffer) := by
      rw [freed]
      exact release_placed _ _ placed
    rw [List.foldl_cons, List.map_cons, List.foldl_cons, ← freed]
    exact inductionHypothesis _ _ kept

/-- The scan of the nodes is that of their buffers. -/
theorem translated_nodes (start target : Buffer → Word) (list : List BufferNode) (pbuf : Word) :
    translated start target (list.map BufferNode.buffer) pbuf =
      match list.find? fun node => inRange start pbuf node.buffer with
      | some node => target node.buffer + pbuf - start node.buffer
      | none => 0 := by
  rw [translated, List.find?_map]
  cases scan : list.find? fun node => inRange start pbuf node.buffer with
  | none => simp only [Function.comp_def, scan, Option.map_none]
  | some node => simp only [Function.comp_def, scan, Option.map_some]

/-- The lock is free, and the list of the open context holds the live buffers. -/
structure Tracks (iommuFlag : Int) (allocator : Allocator) (live : List Buffer) : Prop where
  free : allocator.gIonMutexAlloc = false
  opened : ∃ context, allocator.gIonAllocContext = some context ∧ context.iommuFlag = iommuFlag ∧
    context.list.map BufferNode.buffer = live

section Tracked
variable (iommuFlag : Int) (allocator : Allocator) (live : List Buffer)
  (tracks : Tracks iommuFlag allocator live)

include tracks

/-- Taking the free lock and giving it back changes nothing. -/
theorem lock_unlock : pthreadMutexUnlock { allocator with gIonMutexAlloc := true } = allocator := by
  rw [pthreadMutexUnlock, ← tracks.free]

/-- Both calls scan the live buffers. -/
theorem vir2phy_translated (pbuf : Word) (nonnull : pbuf ≠ 0) :
    seanIonAllocVir2phyCpu allocator pbuf =
      .ok (allocator, translated Buffer.vir Buffer.phy live pbuf) := by
  have unlocked := lock_unlock iommuFlag allocator live tracks
  obtain ⟨free, context, isOpen, -, rfl⟩ := tracks
  simp only [seanIonAllocVir2phyCpu, if_neg nonnull, lock_free allocator free, isOpen, bind,
    Except.bind, pure, Except.pure] at unlocked ⊢
  rw [unlocked, translated_nodes]
  rfl

/-- This one takes a zero address as any other. -/
theorem phy2vir_translated (pbuf : Word) :
    seanIonAllocPhy2virCpu allocator pbuf =
      .ok (allocator, translated Buffer.phy Buffer.vir live pbuf) := by
  have unlocked := lock_unlock iommuFlag allocator live tracks
  obtain ⟨free, context, isOpen, -, rfl⟩ := tracks
  simp only [seanIonAllocPhy2virCpu, lock_free allocator free, isOpen, bind, Except.bind, pure,
    Except.pure] at unlocked ⊢
  rw [unlocked, translated_nodes]
  rfl

/-- Every call but closing returns and keeps track of the live buffers. -/
theorem step_tracks (placed : Placed live) (operation : Operation) (other : operation ≠ .closing) :
    ∃ after, step allocator operation = .ok after ∧
      Tracks iommuFlag after (ledger iommuFlag live operation) := by
  match operation with
  | .closing => exact absurd rfl other
  | .palloc none | .pfree none | .pfree (some []) => exact ⟨allocator, rfl, tracks⟩
  | .palloc (some []) =>
    refine ⟨allocator, rfl, ?_⟩
    rw [ledger, grants, List.append_nil]
    exact tracks
  | .opening iommuFlag outcome =>
    obtain ⟨free, context, isOpen, flag, listed⟩ := tracks
    simp only [step, seanIonAllocOpen, lock_free allocator free, isOpen, bind, Except.bind, pure,
      Except.pure]
    exact ⟨_, rfl, rfl, _, rfl, flag, listed⟩
  | .palloc (some (request :: rest)) =>
    obtain ⟨free, context, isOpen, flag, listed⟩ := tracks
    simp only [step, seanIonAllocPalloc, lock_free allocator free, isOpen, bind, Except.bind, pure,
      Except.pure]
    refine ⟨_, rfl, rfl, _, rfl, flag, ?_⟩
    rw [ledger, ← listed, ← flag]
    exact palloc_loop_grants context.iommuFlag (request :: rest) context.list allocator.held
  | .pfree (some (request :: rest)) =>
    obtain ⟨free, context, isOpen, flag, listed⟩ := tracks
    simp only [step, seanIonAllocPfree, lock_free allocator free, isOpen, bind, Except.bind, pure,
      Except.pure]
    refine ⟨_, rfl, rfl, _, rfl, flag, ?_⟩
    rw [ledger, ← listed]
    exact free_loop_release (request :: rest) context.list allocator.held (listed ▸ placed)
  | .vir2phy pbuf =>
    refine ⟨allocator, ?_, tracks⟩
    by_cases null : pbuf = 0
    · rw [step, seanIonAllocVir2phyCpu, if_pos null]
      rfl
    · rw [step, vir2phy_translated iommuFlag allocator live tracks pbuf null]
      rfl
  | .phy2vir pbuf =>
    refine ⟨allocator, ?_, tracks⟩
    rw [step, phy2vir_translated iommuFlag allocator live tracks pbuf]
    rfl

end Tracked

/-- While the kernel places the live buffers, every call but closing returns, and the list
holds the live buffers. -/
theorem run_tracks (iommuFlag : Int) (allocator : Allocator) (live : List Buffer)
    (tracks : Tracks iommuFlag allocator live) (operations : List Operation)
    (others : ∀ operation ∈ operations, operation ≠ .closing)
    (placed : ∀ earlier, earlier <+: operations → Placed (earlier.foldl (ledger iommuFlag) live)) :
    ∃ after, Runs.run step allocator operations = .ok after ∧
      Tracks iommuFlag after (operations.foldl (ledger iommuFlag) live) := by
  induction operations using List.reverseRecOn with
  | nil => exact ⟨allocator, rfl, tracks⟩
  | append_singleton earlier operation inductionHypothesis =>
    obtain ⟨before, reached, tracked⟩ := inductionHypothesis
      (fun other member => others other (List.mem_append_left [operation] member))
      (fun shorter within => placed shorter (within.trans (List.prefix_append earlier [operation])))
    obtain ⟨after, called, kept⟩ := step_tracks iommuFlag before _ tracked
      (placed earlier (List.prefix_append earlier [operation])) operation (others operation (by simp))
    refine ⟨after, ?_, ?_⟩
    · rw [Runs.run_snoc allocator before earlier operation reached, called]
    · rw [List.foldl_append, List.foldl_cons, List.foldl_nil]
      exact kept

/-- The translations between the addresses of live buffers. -/
structure Translates (allocator : Allocator) (live : List Buffer) : Prop where
  /-- Each offset of a live buffer is translated to the same offset, in both directions. -/
  physical : ∀ buffer ∈ live, ∀ offset < buffer.size.toNat,
    seanIonAllocVir2phyCpu allocator (buffer.vir + BitVec.ofNat 32 offset) =
      .ok (allocator, buffer.phy + BitVec.ofNat 32 offset)
  virtual : ∀ buffer ∈ live, ∀ offset < buffer.size.toNat,
    seanIonAllocPhy2virCpu allocator (buffer.phy + BitVec.ofNat 32 offset) =
      .ok (allocator, buffer.vir + BitVec.ofNat 32 offset)
  /-- Any other address than zero is translated to zero. -/
  unmapped : ∀ pbuf ≠ 0, (∀ buffer ∈ live, ¬ buffer.Covers Buffer.vir pbuf) →
    seanIonAllocVir2phyCpu allocator pbuf = .ok (allocator, 0)
  unplaced : ∀ pbuf ≠ 0, (∀ buffer ∈ live, ¬ buffer.Covers Buffer.phy pbuf) →
    seanIonAllocPhy2virCpu allocator pbuf = .ok (allocator, 0)

/-- The scans find a live buffer: its ranges end before the last address. The only other
buffer that is translated as if they did is the last virtual byte at the physical address
zero. -/
def Buffer.Found (buffer : Buffer) : Prop :=
  (buffer.vir.toNat + buffer.size.toNat < 2 ^ 32 ∨ buffer.size = 1 ∧ buffer.phy = 0) ∧
    buffer.phy.toNat + buffer.size.toNat < 2 ^ 32

/-- The calls translate as they should exactly when the scans find every live buffer. -/
theorem tracks_translates_iff (iommuFlag : Int) (allocator : Allocator) (live : List Buffer)
    (tracks : Tracks iommuFlag allocator live) (placed : Placed live) :
    Translates allocator live ↔ ∀ buffer ∈ live, buffer.Found := by
  have vir2phy : ∀ pbuf ≠ 0, seanIonAllocVir2phyCpu allocator pbuf =
      .ok (allocator, translated Buffer.vir Buffer.phy live pbuf) :=
    vir2phy_translated iommuFlag allocator live tracks
  have phy2vir : ∀ pbuf, seanIonAllocPhy2virCpu allocator pbuf =
      .ok (allocator, translated Buffer.phy Buffer.vir live pbuf) :=
    phy2vir_translated iommuFlag allocator live tracks
  have nonnull : ∀ buffer ∈ live, ∀ offset < buffer.size.toNat,
      buffer.vir + BitVec.ofNat 32 offset ≠ 0 := by
    intro buffer member offset inside zero
    have value : (buffer.vir + BitVec.ofNat 32 offset).toNat = 0 := congrArg BitVec.toNat zero
    rw [offset_value Buffer.vir live placed.virtual buffer member offset inside] at value
    exact placed.mapped buffer member (BitVec.eq_of_toNat_eq (Nat.eq_zero_of_add_eq_zero_right value))
  constructor
  · intro translates buffer member
    have bytes := placed.bytes buffer member
    constructor
    · apply (translated_offsets_iff Buffer.vir Buffer.phy live placed.virtual buffer member bytes).mp
      intro offset inside
      have returned := translates.physical buffer member offset inside
      rw [vir2phy _ (nonnull buffer member offset inside)] at returned
      exact (Prod.mk.inj (Except.ok.inj returned)).2
    · have offsets :=
        (translated_offsets_iff Buffer.phy Buffer.vir live placed.physical buffer member bytes).mp
      refine (offsets ?_).resolve_right fun last => placed.mapped buffer member last.2
      intro offset inside
      have returned := translates.virtual buffer member offset inside
      rw [phy2vir] at returned
      exact (Prod.mk.inj (Except.ok.inj returned)).2
  · intro found
    refine ⟨?_, ?_, ?_, ?_⟩
    · intro buffer member offset inside
      have bytes := placed.bytes buffer member
      rw [vir2phy _ (nonnull buffer member offset inside),
        (translated_offsets_iff Buffer.vir Buffer.phy live placed.virtual buffer member bytes).mpr
          (found buffer member).1 offset inside]
    · intro buffer member offset inside
      have bytes := placed.bytes buffer member
      rw [phy2vir, (translated_offsets_iff Buffer.phy Buffer.vir live placed.physical buffer member
        bytes).mpr (Or.inl (found buffer member).2) offset inside]
    · intro pbuf address outside
      rw [vir2phy pbuf address, translated_outside Buffer.vir Buffer.phy live placed.virtual pbuf
        fun buffer member covers => absurd covers (outside buffer member)]
    · intro pbuf _ outside
      rw [phy2vir pbuf, translated_outside Buffer.phy Buffer.vir live placed.physical pbuf
        fun buffer member covers => absurd covers (outside buffer member)]

/-- Translating addresses is a bijection on live buffers that the scans find. From an
open context with a free lock, after any calls other than closing, while the kernel places
what is live: each address of a live buffer is translated to its offset in the other range
and back, and an address outside of all live buffers to zero, exactly when the scans find
every live buffer. A range that ends at the last address is missed. -/
theorem translation_bijective_iff (allocator : Allocator) (context : IonAllocContext)
    (isOpen : allocator.gIonAllocContext = some context) (free : allocator.gIonMutexAlloc = false)
    (operations : List Operation) (others : ∀ operation ∈ operations, operation ≠ .closing)
    (placed : ∀ earlier, earlier <+: operations →
      Placed (earlier.foldl (ledger context.iommuFlag) (context.list.map BufferNode.buffer))) :
    ∃ after, Runs.run step allocator operations = .ok after ∧
      (Translates after
          (operations.foldl (ledger context.iommuFlag) (context.list.map BufferNode.buffer)) ↔
        ∀ buffer ∈ operations.foldl (ledger context.iommuFlag) (context.list.map BufferNode.buffer),
          buffer.Found) := by
  obtain ⟨after, returned, tracks⟩ := run_tracks context.iommuFlag allocator _
    ⟨free, context, isOpen, rfl, rfl⟩ operations others placed
  exact ⟨after, returned,
    tracks_translates_iff _ after _ tracks (placed operations (List.prefix_refl _))⟩

/-- An open context without buffers. -/
def opened : Allocator := ⟨some ⟨3, 4, [], 1, 1⟩, false, ⟨[], [], []⟩⟩

/-- A request of 4096 bytes that is granted the given addresses. -/
def grantedRequest (vir phy : Word) : MemBufInfo × Outcome :=
  (⟨0, 0, 0, 4096⟩, ⟨0, 7, 0, 8, some vir, 0, 0, phy, 0, 0, true, 0, 0⟩)

/-- Two buffers, of which the first is given back. -/
def twoBuffers : List Operation :=
  [.palloc (some [grantedRequest 0xB6000000 0x40000000, grantedRequest 0xB5000000 0x40001000]),
   .pfree (some [(⟨8, 0xB6000000, 0x40000000, 4096⟩, ⟨0, 0⟩)])]

/-- The other buffer is translated in both directions. -/
theorem translation_bijective_two :
    (∀ earlier ∈ twoBuffers.inits, Placed (earlier.foldl (ledger 1) [])) ∧
      ∃ after, Runs.run step opened twoBuffers = .ok after ∧
        Translates after [⟨0xB5000000, 0x40001000, 4096⟩] := by
  have placed : ∀ earlier ∈ twoBuffers.inits, Placed (earlier.foldl (ledger 1) []) := by decide
  obtain ⟨after, returned, translates⟩ :=
    translation_bijective_iff opened ⟨3, 4, [], 1, 1⟩ rfl rfl twoBuffers (by decide)
      fun earlier within => placed earlier ((List.mem_inits earlier twoBuffers).mpr within)
  refine ⟨placed, after, returned, translates.mpr ?_⟩
  intro buffer member
  obtain rfl := List.mem_singleton.mp member
  exact ⟨Or.inl (by decide), by decide⟩

/-- One page is granted, at the last page of the addresses that the engine sees. -/
def lastPage : List Operation := [.palloc (some [grantedRequest 0xB6000000 0xFFFFF000])]

/-- It does not wrap, and its first physical address is translated to zero. -/
theorem last_page_missed :
    (∀ earlier ∈ lastPage.inits, Placed (earlier.foldl (ledger 1) [])) ∧
      ∃ after, Runs.run step opened lastPage = .ok after ∧
        seanIonAllocPhy2virCpu after 0xFFFFF000 = .ok (after, 0) ∧
        ¬ Translates after [⟨0xB6000000, 0xFFFFF000, 4096⟩] := by
  have placed : ∀ earlier ∈ lastPage.inits, Placed (earlier.foldl (ledger 1) []) := by decide
  obtain ⟨after, returned, tracks⟩ := run_tracks 1 opened [] ⟨rfl, _, rfl, rfl, rfl⟩ lastPage
    (by decide) fun earlier within => placed earlier ((List.mem_inits earlier lastPage).mpr within)
  have missed : seanIonAllocPhy2virCpu after 0xFFFFF000 = .ok (after, 0) :=
    phy2vir_translated 1 after _ tracks 0xFFFFF000
  refine ⟨placed, after, returned, missed, ?_⟩
  intro translates
  have expected := translates.virtual _ List.mem_cons_self 0 (by decide)
  have zero := (Prod.mk.inj (Except.ok.inj (missed.symm.trans expected))).2
  cases zero

end IotCamera.Ion
