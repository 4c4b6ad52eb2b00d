import Mathlib.Data.List.Basic
import Mathlib.Logic.Function.Basic

/-!
# Chains of cells in a heap

A heap maps addresses to cells; an address without a cell was never allocated or
has been freed, and using it is a fault. Pointers are optional addresses. A
chain is the list of addresses that a pointer leads through, each one once, up
to the null pointer.

The rules are those of a queue: a chain depends only on its own cells, it can be
entered behind its first cell when that one is freed, and a fresh cell can be
linked behind its last one.
-/

namespace Chains

universe u
variable {α : Type u}

/-- A cell: a value and the pointer to the next cell. -/
structure Cell (α : Type u) where
  value : α
  next : Option Nat
  deriving DecidableEq, Repr

/-- The cell at each address, if there is one. -/
def Heap (α : Type u) := Nat → Option (Cell α)

/-- What stops a program at a pointer. -/
inductive Fault where
  | nullPointer
  | dangling
  deriving DecidableEq, Repr

/-- Follow a pointer to its cell. -/
def Heap.load (heap : Heap α) : Option Nat → Except Fault (Cell α)
  | none => .error .nullPointer
  | some address =>
    match heap address with
    | some cell => .ok cell
    | none => .error .dangling

/-- Replace what stands at an address. -/
def Heap.update (heap : Heap α) (address : Nat) (cell : Option (Cell α)) : Heap α :=
  Function.update heap address cell

/-- Set the next pointer of the cell a pointer leads to. -/
def Heap.setNext (heap : Heap α) (pointer next : Option Nat) : Except Fault (Heap α) :=
  match pointer with
  | none => .error .nullPointer
  | some address =>
    match heap address with
    | some cell => .ok (heap.update address (some { cell with next := next }))
    | none => .error .dangling

/-- Free a cell; freeing the null pointer does nothing. -/
def Heap.free (heap : Heap α) : Option Nat → Except Fault (Heap α)
  | none => .ok heap
  | some address =>
    match heap address with
    | some _ => .ok (heap.update address none)
    | none => .error .dangling

/-- The cell that is updated is the new one. -/
@[simp] theorem update_same (heap : Heap α) (address : Nat) (cell : Option (Cell α)) :
    heap.update address cell address = cell := Function.update_self ..

/-- The others stay. -/
theorem update_other (heap : Heap α) (address other : Nat) (cell : Option (Cell α))
    (different : other ≠ address) : heap.update address cell other = heap other :=
  Function.update_of_ne different ..

/-- The addresses a pointer leads through, each once, up to the null pointer. -/
def Chain (heap : Heap α) : Option Nat → List Nat → Prop
  | start, [] => start = none
  | start, address :: rest =>
    start = some address ∧ address ∉ rest ∧
      ∃ cell, heap address = some cell ∧ Chain heap cell.next rest

/-- The values along some addresses. -/
def values (heap : Heap α) (addresses : List Nat) : List α :=
  addresses.filterMap fun address => (heap address).map Cell.value

/-- A chain depends on its own cells alone. -/
theorem chain_congr (heap heap' : Heap α) (start : Option Nat) (addresses : List Nat)
    (same : ∀ address ∈ addresses, heap' address = heap address)
    (chain : Chain heap start addresses) : Chain heap' start addresses := by
  induction addresses generalizing start with
  | nil => exact chain
  | cons address rest inductionHypothesis =>
    obtain ⟨begins, once, cell, held, following⟩ := chain
    exact ⟨begins, once, cell, (same address List.mem_cons_self).trans held,
      inductionHypothesis cell.next
        (fun other member => same other (List.mem_cons_of_mem address member)) following⟩

/-- The values of a chain depend on its own cells only. -/
theorem values_congr (heap heap' : Heap α) (addresses : List Nat)
    (same : ∀ address ∈ addresses,
      (heap' address).map Cell.value = (heap address).map Cell.value) :
    values heap' addresses = values heap addresses :=
  List.filterMap_congr same

/-- The values of addresses in two parts are those of both. -/
theorem values_append (heap : Heap α) (first second : List Nat) :
    values heap (first ++ second) = values heap first ++ values heap second :=
  List.filterMap_append

/-- Setting a next pointer leaves every value as it was. -/
theorem update_next_value (heap : Heap α) (address : Nat) (cell : Cell α) (next : Option Nat)
    (held : heap address = some cell) (other : Nat) :
    (heap.update address (some { cell with next := next }) other).map Cell.value =
      (heap other).map Cell.value := by
  by_cases same : other = address
  · subst same
    rw [update_same, held]
    rfl
  · rw [update_other heap address other _ same]

/-- Every address of a chain holds a cell. -/
theorem chain_member (heap : Heap α) (start : Option Nat) (addresses : List Nat)
    (chain : Chain heap start addresses) (address : Nat) (member : address ∈ addresses) :
    ∃ cell, heap address = some cell := by
  induction addresses generalizing start with
  | nil => cases member
  | cons first rest inductionHypothesis =>
    obtain ⟨_, _, cell, held, following⟩ := chain
    rcases List.mem_cons.mp member with rfl | later
    · exact ⟨cell, held⟩
    · exact inductionHypothesis cell.next following later

/-- The values of a chain begin with that of its first cell. -/
theorem values_cons (heap : Heap α) (address : Nat) (rest : List Nat) (cell : Cell α)
    (held : heap address = some cell) :
    values heap (address :: rest) = cell.value :: values heap rest := by
  simp [values, held]

/-- A chain has as many values as cells. -/
theorem chain_values_length (heap : Heap α) (start : Option Nat) (addresses : List Nat)
    (chain : Chain heap start addresses) : (values heap addresses).length = addresses.length := by
  induction addresses generalizing start with
  | nil => rfl
  | cons address rest inductionHypothesis =>
    obtain ⟨_, _, cell, held, following⟩ := chain
    rw [values_cons heap address rest cell held, List.length_cons, List.length_cons,
      inductionHypothesis cell.next following]

/-- Freeing the first cell leaves the chain behind it. -/
theorem chain_free (heap : Heap α) (start : Option Nat) (address : Nat) (rest : List Nat)
    (chain : Chain heap start (address :: rest)) :
    ∃ cell, heap address = some cell ∧ Chain (heap.update address none) cell.next rest ∧
      values heap (address :: rest) = cell.value :: values (heap.update address none) rest := by
  obtain ⟨_, once, cell, held, following⟩ := chain
  have same : ∀ other ∈ rest, heap.update address none other = heap other :=
    fun other member => update_other heap address other none (fun equal => once (equal ▸ member))
  refine ⟨cell, held, chain_congr heap _ cell.next rest same following, ?_⟩
  rw [values_congr heap (heap.update address none) rest
    fun other member => congrArg (Option.map Cell.value) (same other member)]
  exact values_cons heap address rest cell held

/-- Linking a fresh last cell behind the last cell of a chain. Only the next
pointer of the old last cell changes; the induction walks to it. -/
theorem chain_link (heap : Heap α) (start : Option Nat) (addresses : List Nat) (last fresh : Nat)
    (value : α) (chain : Chain heap start (addresses ++ [last])) (outside : fresh ∉ addresses)
    (apart : fresh ≠ last) (held : heap fresh = some ⟨value, none⟩) :
    ∃ cell, heap last = some cell ∧
      Chain (heap.update last (some { cell with next := some fresh })) start
        (addresses ++ [last, fresh]) := by
  induction addresses generalizing start with
  | nil =>
    obtain ⟨begins, _, cell, found, _⟩ := chain
    refine ⟨cell, found, begins, by simpa using apart.symm, _, update_same .., rfl, by simp,
      ⟨value, none⟩, ?_, rfl⟩
    rw [update_other heap last fresh _ apart, held]
  | cons address rest inductionHypothesis =>
    obtain ⟨begins, once, first, found, following⟩ := chain
    obtain ⟨cell, place, linked⟩ := inductionHypothesis first.next following
      (fun member => outside (List.mem_cons_of_mem address member))
    have different : address ≠ last := by
      rintro rfl
      exact once (by simp)
    refine ⟨cell, place, begins, ?_, first, ?_, linked⟩
    · intro member
      rcases List.mem_append.mp member with inside | added
      · exact once (List.mem_append_left [last] inside)
      · rcases List.mem_pair.mp added with same | same
        · exact different same
        · exact outside (same ▸ List.mem_cons_self)
    · rw [update_other heap last address _ different, found]

end Chains
