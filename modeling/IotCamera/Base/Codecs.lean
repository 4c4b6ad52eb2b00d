import Mathlib.Data.Nat.Basic
import Mathlib.Data.BitVec
import Mathlib.Tactic.Common

/-!
# Reading from bytes and writing into a buffer

A reader takes what it wants off the front of the bytes that are left, or fails. A writer
appends to a buffer that has room for a number of bytes, or fails. Both are sequences of
small steps, and what they do as a whole is put together from what the steps do.
-/

namespace Codecs

abbrev Byte := BitVec 8

variable {ε α β : Type}

/-- A reader of the bytes that are left. -/
abbrev ByteReader (ε : Type) := StateT (List Byte) (Except ε)

/-- The next bytes, when there are as many. -/
def take (failure : ε) (count : Nat) : ByteReader ε (List Byte) := fun bytes =>
  if count ≤ bytes.length then .ok (bytes.take count, bytes.drop count) else .error failure

section Steps

variable {σ : Type}

/-- A step goes on where the one before it stopped. -/
theorem bind_read {first : StateT σ (Except ε) α} {next : α → StateT σ (Except ε) β} {state after : σ}
    {value : α} (read : first state = .ok (value, after)) : (first >>= next) state = next value after := by
  change (first state >>= fun result => next result.1 result.2) = _
  rw [read]
  rfl

/-- A step may look at the state before it goes on. -/
theorem get_read (next : σ → StateT σ (Except ε) β) (state : σ) :
    (get >>= next : StateT σ (Except ε) β) state = next state state := rfl

/-- What a sequence of steps returns comes from its parts. -/
theorem bind_read_inv {first : StateT σ (Except ε) α} {next : α → StateT σ (Except ε) β} {state after : σ}
    {value : β} (read : (first >>= next) state = .ok (value, after)) :
    ∃ between middle, first state = .ok (between, middle) ∧ next between middle = .ok (value, after) := by
  change (first state >>= fun result => next result.1 result.2) = _ at read
  cases outcome : first state with
  | error failure => rw [outcome] at read; cases read
  | ok result => rw [outcome] at read; exact ⟨result.1, result.2, rfl, read⟩

/-- A sequence fails as its first step does. -/
theorem bind_failed {first : StateT σ (Except ε) α} {next : α → StateT σ (Except ε) β} {state : σ}
    {failure : ε} (failed : first state = .error failure) : (first >>= next) state = .error failure := by
  change (first state >>= fun result => next result.1 result.2) = _
  rw [failed]
  rfl

/-- From every state of a kind a step fails in an expected way, or leaves a value and a state of
another kind. -/
def Guards (expected : ε → Prop) (before : σ → Prop) (step : StateT σ (Except ε) α) (behind : α → σ → Prop) : Prop :=
  ∀ state, before state → (∃ failure, expected failure ∧ step state = .error failure) ∨
    ∃ value after, step state = .ok (value, after) ∧ behind value after

/-- A sequence of steps is guarded when each of them is from what the one before leaves. -/
theorem Guards.bind {expected : ε → Prop} {before : σ → Prop} {step : StateT σ (Except ε) α}
    {middle : α → σ → Prop} {next : α → StateT σ (Except ε) β} {behind : β → σ → Prop}
    (first : Guards expected before step middle) (second : ∀ value, Guards expected (middle value) (next value) behind) :
    Guards expected before (step >>= next) behind := by
  intro state holds
  obtain ⟨failure, known, failed⟩ | ⟨value, between, done, amid⟩ := first state holds
  · exact .inl ⟨failure, known, bind_failed failed⟩
  · rw [bind_read done]
    exact second value between amid

/-- A step may be asked about fewer states, and less may be said of where it leads. -/
theorem Guards.mono {expected : ε → Prop} {before stronger : σ → Prop} {step : StateT σ (Except ε) α}
    {middle weaker : α → σ → Prop} (guards : Guards expected before step middle)
    (enough : ∀ state, stronger state → before state)
    (less : ∀ value state, middle value state → weaker value state) : Guards expected stronger step weaker := by
  intro state holds
  obtain failed | ⟨value, after, done, behind⟩ := guards state (enough state holds)
  · exact .inl failed
  · exact .inr ⟨value, after, done, less value after behind⟩

/-- Returning a value leaves the state as it is. -/
theorem pure_guards {expected : ε → Prop} {before : σ → Prop} {behind : α → σ → Prop} (value : α)
    (holds : ∀ state, before state → behind value state) : Guards expected before (pure value) behind :=
  fun state start => .inr ⟨value, state, rfl, holds state start⟩

/-- An expected failure needs no state. -/
theorem throw_guards {expected : ε → Prop} {before : σ → Prop} {behind : α → σ → Prop} {failure : ε}
    (known : expected failure) : Guards expected before (throw failure : StateT σ (Except ε) α) behind :=
  fun _ _ => .inl ⟨failure, known, rfl⟩

/-- A result from elsewhere leaves the state as it is. -/
theorem lift_guards {expected : ε → Prop} {before : σ → Prop} {holds : α → Prop} {result : Except ε α}
    (outcome : (∃ failure, expected failure ∧ result = .error failure) ∨ ∃ value, result = .ok value ∧ holds value) :
    Guards expected before (liftM result) fun value after => holds value ∧ before after := by
  intro state start
  obtain ⟨failure, known, rfl⟩ | ⟨value, rfl, kept⟩ := outcome
  · exact .inl ⟨failure, known, rfl⟩
  · exact .inr ⟨value, state, rfl, kept, start⟩

end Steps

/-- The bytes in front are taken, and the rest is left. -/
theorem take_append (failure : ε) (front rest : List Byte) :
    take failure front.length (front ++ rest) = .ok (front, rest) := by
  simp [take]

/-- Bytes that are taken are the front of those that were left. -/
theorem take_inv {failure : ε} {count : Nat} {bytes taken rest : List Byte}
    (read : take failure count bytes = .ok (taken, rest)) :
    taken.length = count ∧ bytes = taken ++ rest := by
  unfold take at read
  split at read
  case isTrue enough =>
    cases read
    exact ⟨List.length_take_of_le enough, (List.take_append_drop count bytes).symm⟩
  case isFalse => cases read

/-- On no more than `limit` bytes a reader fails in an expected way or takes at least `least`
bytes off the front. -/
def Ends (expected : ε → Prop) (limit least : Nat) (reader : ByteReader ε α) : Prop :=
  ∀ bytes : List Byte, bytes.length ≤ limit →
    (∃ failure, expected failure ∧ reader bytes = .error failure) ∨
      ∃ value used rest, reader bytes = .ok (value, rest) ∧ bytes = used ++ rest ∧ least ≤ used.length

/-- A reader may be given less, and less may be asked of it. -/
theorem Ends.mono {expected : ε → Prop} {limit most least fewest : Nat} {reader : ByteReader ε α}
    (ends : Ends expected limit least reader) (shorter : most ≤ limit) (fewer : fewest ≤ least) :
    Ends expected most fewest reader := by
  intro bytes bound
  obtain failed | ⟨value, used, rest, read, parts, enough⟩ := ends bytes (by omega)
  · exact .inl failed
  · exact .inr ⟨value, used, rest, read, parts, by omega⟩

/-- Taking bytes takes all of them or fails. -/
theorem take_ends {expected : ε → Prop} (limit : Nat) {failure : ε} (count : Nat)
    (known : expected failure) : Ends expected limit count (take failure count) := by
  intro bytes _
  unfold take
  split
  case isTrue enough =>
    exact .inr ⟨_, _, _, rfl, (List.take_append_drop count bytes).symm, by simp [enough]⟩
  case isFalse => exact .inl ⟨failure, known, rfl⟩

/-- Returning a value takes nothing. -/
theorem pure_ends (expected : ε → Prop) (limit : Nat) (value : α) :
    Ends expected limit 0 (pure value : ByteReader ε α) :=
  fun bytes _ => .inr ⟨value, [], bytes, rfl, rfl, Nat.le_refl 0⟩

/-- An expected failure ends a reader. -/
theorem throw_ends {expected : ε → Prop} (limit least : Nat) {failure : ε} (known : expected failure) :
    Ends expected limit least (throw failure : ByteReader ε α) :=
  fun _ _ => .inl ⟨failure, known, rfl⟩

/-- What the first reader takes is not there for the next one. -/
theorem Ends.bind {expected : ε → Prop} {limit first second : Nat} {reader : ByteReader ε α}
    {next : α → ByteReader ε β} (begins : Ends expected limit first reader)
    (ends : first ≤ limit → ∀ value, Ends expected (limit - first) second (next value)) :
    Ends expected limit (first + second) (reader >>= next) := by
  intro bytes bound
  obtain ⟨failure, known, failed⟩ | ⟨value, used, rest, read, rfl, enough⟩ := begins bytes bound
  · exact .inl ⟨failure, known, bind_failed failed⟩
  rw [List.length_append] at bound
  rw [bind_read read]
  obtain failed | ⟨result, more, left, read, rfl, further⟩ := ends (by omega) value rest (by omega)
  · exact .inl failed
  · refine .inr ⟨result, used ++ more, left, read, (List.append_assoc _ _ _).symm, ?_⟩
    rw [List.length_append]
    omega

/-- A sequence of readers takes what the first one takes. -/
theorem Ends.seq {expected : ε → Prop} {limit first : Nat} {reader : ByteReader ε α}
    {next : α → ByteReader ε β} (begins : Ends expected limit first reader)
    (ends : first ≤ limit → ∀ value, Ends expected (limit - first) 0 (next value)) :
    Ends expected limit first (reader >>= next) :=
  begins.bind ends

/-- A buffer with what is written and the number of bytes it still has room for. -/
structure Buffer where
  written : List Byte
  left : Nat
  deriving DecidableEq

/-- A writer into a buffer. -/
abbrev ByteWriter (ε : Type) := StateT Buffer (Except ε)

/-- Bytes are written when there is room for all of them. -/
def put (failure : ε) (bytes : List Byte) : ByteWriter ε Unit := fun buffer =>
  if bytes.length ≤ buffer.left then
    .ok ((), ⟨buffer.written ++ bytes, buffer.left - bytes.length⟩)
  else
    .error failure

/-- The writer writes just these bytes, or fails when there is no room for all of them. -/
def Writes (failure : ε) (bytes : List Byte) (writer : ByteWriter ε Unit) : Prop :=
  ∀ buffer, writer buffer = put failure bytes buffer

/-- Putting bytes writes them. -/
theorem put_writes (failure : ε) (bytes : List Byte) : Writes failure bytes (put failure bytes) :=
  fun _ => rfl

/-- Doing nothing writes nothing. -/
theorem pure_writes (failure : ε) : Writes failure [] (pure ()) := by
  intro buffer
  simp only [put, List.length_nil, Nat.zero_le, if_true, List.append_nil, Nat.sub_zero]
  rfl

/-- Writers one after the other write their bytes one after the other. -/
theorem Writes.append {failure : ε} {front back : List Byte} {first second : ByteWriter ε Unit}
    (begins : Writes failure front first) (ends : Writes failure back second) :
    Writes failure (front ++ back) (do first; second) := by
  intro buffer
  change (first buffer >>= fun result => second result.2) = _
  rw [begins buffer]
  unfold put
  by_cases room : front.length ≤ buffer.left
  case neg =>
    have whole : ¬ (front ++ back).length ≤ buffer.left := by rw [List.length_append]; omega
    rw [if_neg room, if_neg whole]
    rfl
  rw [if_pos room]
  change second _ = _
  rw [ends]
  unfold put
  dsimp only
  have joined : back.length ≤ buffer.left - front.length ↔ (front ++ back).length ≤ buffer.left := by
    rw [List.length_append]
    omega
  rw [if_congr joined rfl rfl, List.append_assoc, List.length_append, Nat.sub_sub]

end Codecs
