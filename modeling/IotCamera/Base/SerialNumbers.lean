import Mathlib.Data.BitVec
import Mathlib.Data.List.Perm.Subperm

/-!
# Numbers that count round

Serial numbers of a fixed width come round after the highest. Two of them are compared by
the sign of their difference, which says which is the later one as long as they are less
than half of the numbers apart. Counted from a common base they then compare like their
offsets, so a window of numbers behind a base is an interval of offsets.
-/

namespace SerialNumbers

variable {width : Nat}

/-- The signed difference of two numbers. -/
def distance (later earlier : BitVec width) : Int := (later - earlier).toInt

/-- How far a number is behind a base. -/
def offset (base number : BitVec width) : Nat := (number - base).toNat

/-- A number is at no distance from itself. -/
theorem offset_self (base : BitVec width) : offset base base = 0 := by
  rw [offset, BitVec.sub_self, BitVec.toNat_zero]

/-- Numbers in one half behind a base compare like their offsets. -/
theorem distance_offset (base later earlier : BitVec width) (near : 2 * offset base later < 2 ^ width)
    (close : 2 * offset base earlier < 2 ^ width) :
    distance later earlier = offset base later - offset base earlier := by
  have parts : later - earlier = (later - base) - (earlier - base) :=
    (sub_sub_sub_cancel_right later earlier base).symm
  have first : (later - base).toInt = offset base later := BitVec.toInt_eq_toNat_of_lt near
  have second : (earlier - base).toInt = offset base earlier := BitVec.toInt_eq_toNat_of_lt close
  rw [distance, parts, BitVec.toInt_sub, first, second]
  apply Int.bmod_eq_of_le_mul_two
  · omega
  · omega

/-- A number is not before a base when it is in the half behind it. -/
theorem distance_nonneg_iff (base number : BitVec width) :
    0 ≤ distance number base ↔ 2 * offset base number < 2 ^ width := by
  rw [distance, BitVec.toInt_eq_toNat_cond, offset]
  have bound := (number - base).isLt
  split
  · omega
  · omega

/-- A distance that is not negative is an offset. -/
theorem distance_eq_offset (base number : BitVec width) (behind : 0 ≤ distance number base) :
    distance number base = offset base number :=
  BitVec.toInt_eq_toNat_of_lt ((distance_nonneg_iff base number).mp behind)

/-- What is not before a base, and is before the end of a window of less than half of the
numbers, has an offset below the size of the window. -/
theorem window_iff (base size number : BitVec width) (half : 2 * size.toNat < 2 ^ width) :
    (distance number (base + size) < 0 ∧ 0 ≤ distance number base) ↔ offset base number < size.toNat := by
  have reach : offset base (base + size) = size.toNat := by
    rw [offset, add_sub_cancel_left]
  rw [distance_nonneg_iff]
  constructor
  · rintro ⟨before, behind⟩
    rw [distance_offset base number (base + size) behind (by rw [reach]; exact half), reach] at before
    omega
  · intro inside
    have behind : 2 * offset base number < 2 ^ width := by omega
    rw [distance_offset base number (base + size) behind (by rw [reach]; exact half), reach]
    omega

/-- Numbers at the same distance are the same. -/
theorem offset_injective (base first second : BitVec width) (same : offset base first = offset base second) :
    first = second := sub_left_injective (BitVec.eq_of_toNat_eq same)

/-- Counting on from the base is counting the distance. -/
theorem offset_add (base : BitVec width) (count : Nat) (near : count < 2 ^ width) :
    offset base (base + BitVec.ofNat width count) = count := by
  rw [offset, add_sub_cancel_left, BitVec.toNat_ofNat, Nat.mod_eq_of_lt near]

/-- A number further on is so much further behind the base. -/
theorem offset_advance (base number : BitVec width) (count : Nat) (near : offset base number + count < 2 ^ width) :
    offset base (number + BitVec.ofNat width count) = offset base number + count := by
  have parts : number + BitVec.ofNat width count - base = (number - base) + BitVec.ofNat width count :=
    add_sub_right_comm number _ base
  have below : count < 2 ^ width := by omega
  rw [offset, parts, BitVec.toNat_add, BitVec.toNat_ofNat, Nat.mod_eq_of_lt below]
  exact Nat.mod_eq_of_lt near

/-- Counting from a later base takes what it is later off every offset. -/
theorem offset_rebase (base later number : BitVec width) (behind : offset base later ≤ offset base number) :
    offset later number = offset base number - offset base later := by
  have parts : number - later = (number - base) - (later - base) :=
    (sub_sub_sub_cancel_right number later base).symm
  rw [offset, parts, BitVec.toNat_sub_of_le (BitVec.le_def.mpr behind)]
  rfl

/-! ## Numbers in order -/

/-- Numbers in order, each less than a limit behind a base. -/
structure Ordered (base : BitVec width) (limit : Nat) (numbers : List (BitVec width)) : Prop where
  increasing : numbers.Pairwise fun earlier later => offset base earlier < offset base later
  inside : ∀ number ∈ numbers, offset base number < limit

/-- No numbers are in order. -/
theorem ordered_nil (base : BitVec width) (limit : Nat) : Ordered base limit [] :=
  ⟨List.Pairwise.nil, List.forall_mem_nil _⟩

/-- Numbers in order stay in order when some are left out. -/
theorem Ordered.sublist {base : BitVec width} {limit : Nat} {some all : List (BitVec width)}
    (ordered : Ordered base limit all) (part : some.Sublist all) : Ordered base limit some :=
  ⟨ordered.increasing.sublist part, fun number member => ordered.inside number (part.subset member)⟩

/-- Numbers within a limit are within a wider one. -/
theorem Ordered.mono {base : BitVec width} {limit wider : Nat} {numbers : List (BitVec width)}
    (ordered : Ordered base limit numbers) (most : limit ≤ wider) : Ordered base wider numbers :=
  ⟨ordered.increasing, fun number member => Nat.lt_of_lt_of_le (ordered.inside number member) most⟩

/-- There are no more numbers in order than fit below the limit. -/
theorem Ordered.length_le {base : BitVec width} {limit : Nat} {numbers : List (BitVec width)}
    (ordered : Ordered base limit numbers) : numbers.length ≤ limit := by
  have distinct : (numbers.map (offset base)).Nodup :=
    List.pairwise_map.mpr (ordered.increasing.imp fun less => Nat.ne_of_lt less)
  have below : numbers.map (offset base) ⊆ List.range limit := by
    intro value member
    obtain ⟨number, inside, rfl⟩ := List.mem_map.mp member
    exact List.mem_range.mpr (ordered.inside number inside)
  have counted := (List.subperm_of_subset distinct below).length_le
  rw [List.length_map, List.length_range] at counted
  exact counted

/-- Numbers that are not before a later base are in order behind it. -/
theorem Ordered.rebase {base : BitVec width} {limit : Nat} {numbers : List (BitVec width)}
    (ordered : Ordered base limit numbers) (later : BitVec width)
    (behind : ∀ number ∈ numbers, offset base later ≤ offset base number) :
    Ordered later (limit - offset base later) numbers := by
  have moved : ∀ number ∈ numbers, offset later number = offset base number - offset base later :=
    fun number member => offset_rebase base later number (behind number member)
  refine ⟨ordered.increasing.imp_of_mem fun {earlier number} first second less => ?_, fun number member => ?_⟩
  · have least := behind earlier first
    rw [moved earlier first, moved number second]
    omega
  · have inside := ordered.inside number member
    have least := behind number member
    rw [moved number member]
    omega

/-- The first number is a base for all. -/
theorem Ordered.rebase_first {base first : BitVec width} {limit : Nat} {rest : List (BitVec width)}
    (ordered : Ordered base limit (first :: rest)) :
    Ordered first (limit - offset base first) (first :: rest) := by
  refine ordered.rebase first fun number member => ?_
  rcases List.mem_cons.mp member with rfl | later
  · exact Nat.le_refl _
  · exact Nat.le_of_lt ((List.pairwise_cons.mp ordered.increasing).1 number later)

/-- A number at the limit can be put behind the others. -/
theorem Ordered.snoc {base : BitVec width} {limit : Nat} {numbers : List (BitVec width)}
    (ordered : Ordered base limit numbers) (next : BitVec width) (last : offset base next = limit) :
    Ordered base (limit + 1) (numbers ++ [next]) := by
  refine ⟨List.pairwise_append.mpr ⟨ordered.increasing, List.pairwise_singleton _ _, ?_⟩, ?_⟩
  · intro earlier member number single
    rw [List.mem_singleton.mp single, last]
    exact ordered.inside earlier member
  · intro number member
    rcases List.mem_append.mp member with earlier | single
    · exact Nat.lt_succ_of_lt (ordered.inside number earlier)
    · rw [List.mem_singleton.mp single, last]
      exact Nat.lt_succ_self limit

end SerialNumbers
