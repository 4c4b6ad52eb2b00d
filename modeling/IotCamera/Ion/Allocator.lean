import IotCamera.Base.Memory
import IotCamera.Base.Runs

/-!
# The buffer allocator

`ion_alloc.c`: a context behind one lock, with a list of the buffers that were
handed out. Each buffer is an ion handle, a dmabuf descriptor and a mapping; what
the process holds of the three is kept beside the context, so that a path that
returns without releasing something shows. The answers of the kernel and of
`malloc` are inputs: an `int` answer of zero is success.

The lock is not recursive. A call that finds it taken waits for ever, and a call
that reads the context through a null pointer ends the program.
-/

namespace IotCamera.Ion

open Memory

/-- One request, filled in when it is served. -/
structure MemBufInfo where
  dataFd : Int
  virAddr : Word
  phyAddr : Word
  bufferSize : Word
  deriving DecidableEq, Repr

/-- A buffer that was handed out. -/
structure BufferNode where
  phy : Word
  vir : Word
  size : Word
  userVirt : Word
  handle : Int
  qgFd : Int
  deriving DecidableEq, Repr

structure IonAllocContext where
  fd : Int
  tarzanFd : Int
  list : List BufferNode
  refCnt : Int
  iommuFlag : Int
  deriving DecidableEq, Repr

/-- What the process holds of the kernel. -/
structure Held where
  handles : List Int
  fds : List Int
  mappings : List Word
  deriving DecidableEq, Repr

structure Allocator where
  gIonAllocContext : Option IonAllocContext
  gIonMutexAlloc : Bool
  held : Held
  deriving DecidableEq, Repr

/-- Why a call does not return. -/
inductive Stop where
  | blocked
  | nullPointer
  deriving DecidableEq, Repr

def pthreadMutexLock (allocator : Allocator) : Except (Stop × Allocator) Allocator :=
  if allocator.gIonMutexAlloc then .error (.blocked, allocator)
  else .ok { allocator with gIonMutexAlloc := true }

def pthreadMutexUnlock (allocator : Allocator) : Allocator :=
  { allocator with gIonMutexAlloc := false }

/-- How opening is answered: the memory of the context and the two devices. -/
structure OpenOutcome where
  malloc : Bool
  fd : Int
  tarzanFd : Int
  deriving DecidableEq, Repr

/-- Open the allocator, or count one more user of it. Every failure takes back
what was done and releases the lock. -/
def seanIonAllocOpen (allocator : Allocator) (iommuFlag : Int) (outcome : OpenOutcome) :
    Except (Stop × Allocator) (Allocator × Int) := do
  let allocator ← pthreadMutexLock allocator
  match allocator.gIonAllocContext with
  | some context =>
    let context := { context with refCnt := context.refCnt + 1 }
    return (pthreadMutexUnlock { allocator with gIonAllocContext := some context }, 0)
  | none =>
    if outcome.malloc = false then return (pthreadMutexUnlock allocator, -1)
    if outcome.fd ≤ 0 then return (pthreadMutexUnlock allocator, -1)
    if iommuFlag ≠ 0 ∧ outcome.tarzanFd ≤ 0 then return (pthreadMutexUnlock allocator, -1)
    let tarzanFd := if iommuFlag ≠ 0 then outcome.tarzanFd else 0
    let context : IonAllocContext := ⟨outcome.fd, tarzanFd, [], 1, iommuFlag⟩
    return (pthreadMutexUnlock { allocator with gIonAllocContext := some context }, 0)

/-- How one request is answered, in the order in which it asks. -/
structure Outcome where
  alloc : Int
  handle : Int
  map : Int
  qgFd : Int
  mmap : Option Word
  engineReq : Int
  getIommuAddr : Int
  iommuAddr : Word
  custom : Int
  physAddr : Word
  malloc : Bool
  munmap : Int
  free : Int
  deriving DecidableEq, Repr

/-- The physical address of a buffer, or the answer that was not zero. -/
def physicalAddress (iommuFlag : Int) (outcome : Outcome) : Except Int Word :=
  if iommuFlag ≠ 0 then
    if outcome.engineReq ≠ 0 then .error outcome.engineReq
    else if outcome.getIommuAddr ≠ 0 then .error outcome.getIommuAddr
    else .ok outcome.iommuAddr
  else if outcome.custom ≠ 0 then .error outcome.custom
  else .ok outcome.physAddr

/-- One pass of the allocation loop: what is held after it, the value of `ret`, and
the node if there is one. Only the failed `malloc` of a node releases anything,
and its last answer is then what is returned. -/
def allocOne (iommuFlag : Int) (held : Held) (ret : Int) (info : MemBufInfo) (outcome : Outcome) :
    Held × Int × Option BufferNode :=
  if info.bufferSize = 0 then (held, ret, none)
  else if outcome.alloc ≠ 0 then (held, outcome.alloc, none)
  else
    let held := { held with handles := outcome.handle :: held.handles }
    if outcome.map ≠ 0 then (held, outcome.map, none)
    else
      let held := { held with fds := outcome.qgFd :: held.fds }
      match outcome.mmap with
      | none => (held, outcome.map, none)
      | some addrVir =>
        let held := { held with mappings := addrVir :: held.mappings }
        match physicalAddress iommuFlag outcome with
        | .error ret => (held, ret, none)
        | .ok addrPhy =>
          if outcome.malloc then
            (held, 0, some ⟨addrPhy, addrVir, info.bufferSize, addrVir, outcome.handle, outcome.qgFd⟩)
          else
            let mappings := if outcome.munmap = 0 then held.mappings.erase addrVir else held.mappings
            let handles :=
              if outcome.free = 0 then held.handles.erase outcome.handle else held.handles
            (⟨handles, held.fds.erase outcome.qgFd, mappings⟩, outcome.free, none)

/-- What a request is given of its node. -/
def MemBufInfo.fill (info : MemBufInfo) (node : BufferNode) : MemBufInfo :=
  { info with dataFd := node.qgFd, phyAddr := node.phy, virAddr := node.vir }

/-- The allocation loop, which ends at the first request that fails. -/
def pallocLoop (iommuFlag : Int) (list : List BufferNode) (held : Held) (ret : Int) :
    List (MemBufInfo × Outcome) → List BufferNode × Held × Int × List MemBufInfo
  | [] => (list, held, ret, [])
  | (info, outcome) :: rest =>
    match allocOne iommuFlag held ret info outcome with
    | (held, ret, none) => (list, held, ret, info :: rest.map Prod.fst)
    | (held, ret, some node) =>
      let (list, held, ret, infos) := pallocLoop iommuFlag (list ++ [node]) held ret rest
      (list, held, ret, info.fill node :: infos)

/-- Serve an array of requests, a null one or one of no requests at once. -/
def seanIonAllocPalloc (allocator : Allocator) (bufferInfo : Option (List (MemBufInfo × Outcome))) :
    Except (Stop × Allocator) (Allocator × List MemBufInfo × Int) :=
  match bufferInfo with
  | none => .ok (allocator, [], -1)
  | some [] => .ok (allocator, [], -1)
  | some requests => do
    let allocator ← pthreadMutexLock allocator
    match allocator.gIonAllocContext with
    | none => return (pthreadMutexUnlock allocator, requests.map Prod.fst, 0)
    | some context =>
      let (list, held, ret, infos) :=
        pallocLoop context.iommuFlag context.list allocator.held 0 requests
      let context := { context with list := list }
      return (pthreadMutexUnlock { allocator with gIonAllocContext := some context, held := held },
        infos, ret)

/-- How freeing one buffer is answered. The answers of the engine are not used. -/
structure FreeOutcome where
  munmap : Int
  free : Int
  deriving DecidableEq, Repr

/-- One pass of the freeing loop: the first node at the address is released and
leaves the list, whatever the answers. -/
def freeOne (state : List BufferNode × Held) (request : MemBufInfo × FreeOutcome) :
    List BufferNode × Held :=
  let (list, held) := state
  let (info, outcome) := request
  if info.virAddr = 0 then (list, held)
  else
    match list.find? (·.vir = info.virAddr) with
    | none => (list, held)
    | some node =>
      let mappings :=
        if outcome.munmap < 0 then held.mappings else held.mappings.erase node.userVirt
      let handles := if outcome.free = 0 then held.handles.erase node.handle else held.handles
      (list.eraseP (·.vir = info.virAddr), ⟨handles, held.fds.erase node.qgFd, mappings⟩)

/-- Give buffers back. Without a context the function returns behind the lock it
has taken. -/
def seanIonAllocPfree (allocator : Allocator)
    (bufferInfo : Option (List (MemBufInfo × FreeOutcome))) :
    Except (Stop × Allocator) Allocator :=
  match bufferInfo with
  | none => .ok allocator
  | some [] => .ok allocator
  | some requests => do
    let allocator ← pthreadMutexLock allocator
    match allocator.gIonAllocContext with
    | none => return allocator
    | some context =>
      let (list, held) := requests.foldl freeOne (context.list, allocator.held)
      let context := { context with list := list }
      return pthreadMutexUnlock { allocator with gIonAllocContext := some context, held := held }

/-- The physical address of a virtual one, zero if no buffer holds it. -/
def seanIonAllocVir2phyCpu (allocator : Allocator) (pbuf : Word) :
    Except (Stop × Allocator) (Allocator × Word) :=
  if pbuf = 0 then .ok (allocator, 0)
  else do
    let allocator ← pthreadMutexLock allocator
    match allocator.gIonAllocContext with
    | none => .error (.nullPointer, allocator)
    | some context =>
      let found := context.list.find? fun node =>
        node.vir.toNat ≤ pbuf.toNat ∧ pbuf.toNat < (node.vir + node.size).toNat
      let addrPhy := match found with
        | some node => node.phy + pbuf - node.vir
        | none => 0
      return (pthreadMutexUnlock allocator, addrPhy)

/-- The virtual address of a physical one. The test for a null address is
commented out. -/
def seanIonAllocPhy2virCpu (allocator : Allocator) (pbuf : Word) :
    Except (Stop × Allocator) (Allocator × Word) := do
  let allocator ← pthreadMutexLock allocator
  match allocator.gIonAllocContext with
  | none => .error (.nullPointer, allocator)
  | some context =>
    let found := context.list.find? fun node =>
      node.phy.toNat ≤ pbuf.toNat ∧ pbuf.toNat < (node.phy + node.size).toNat
    let addrVir := match found with
      | some node => node.vir + pbuf - node.phy
      | none => 0
    return (pthreadMutexUnlock allocator, addrVir)

/-- Count one user less; the last one frees the nodes and the context. -/
def seanIonAllocClose (allocator : Allocator) : Except (Stop × Allocator) Allocator := do
  let allocator ← pthreadMutexLock allocator
  match allocator.gIonAllocContext with
  | none => .error (.nullPointer, allocator)
  | some context =>
    if context.refCnt - 1 ≤ 0 then
      return pthreadMutexUnlock { allocator with gIonAllocContext := none }
    else
      let context := { context with refCnt := context.refCnt - 1 }
      return pthreadMutexUnlock { allocator with gIonAllocContext := some context }

end IotCamera.Ion
