import IotCamera.Base.Runs

/-!
# The KCP session and its timeout

`udpkcp.cpp`: `handle_update` drives the session `kcp1` in a loop and counts its
iterations since a message was received; past 5000 it releases the session and
makes a new one. `udp_msg_sender` takes the messages that a datagram completed
and clears the count for each. Nothing clears the count when a session is made,
so the first replacement is followed by another one in every iteration until a
message arrives.

Each iteration and each datagram is one step: both are made while `kcpThreadLock`
is held. When it changes hands is left to the next module; here the two kinds of
steps come in any order. The count is an `unsigned int`. What `ikcp_recv` answers
to the calls made for a datagram is an argument.
-/

namespace IotCamera.Kcp

/-- The timeout count, and how many sessions have been created; `kcp1` is the
last of them. -/
structure Session where
  lastrecvtim : BitVec 32
  sessions : Nat
  deriving DecidableEq, Repr

/-- A new session. -/
def initKCP (session : Session) : Session := { session with sessions := session.sessions + 1 }

/-- The state that `udpKcpInit` leaves. -/
def udpKcpInit : Session := initKCP ⟨0, 0⟩

/-- `lastrecvtim += 1`. -/
def Session.count (session : Session) : Session :=
  { session with lastrecvtim := session.lastrecvtim + 1 }

/-- `lastrecvtim > 5000`. -/
def Session.expired (session : Session) : Bool := 5000 < session.lastrecvtim

/-- One iteration of `handle_update`: an expired session is released and replaced. -/
def updateIteration (session : Session) : Session :=
  let session := session.count
  if session.expired then initKCP session else session

/-- The loop of `udp_msg_sender` that takes messages until `ikcp_recv` has none. -/
def recvLoop (session : Session) : List Int → Session
  | [] => session
  | hr :: rest => if hr ≤ 0 then session else recvLoop { session with lastrecvtim := 0 } rest

/-- Whether a datagram completed a message. -/
def received (recvs : List Int) : Bool :=
  match recvs with
  | [] => false
  | hr :: _ => 0 < hr

/-- A step of one of the two threads; a datagram comes with the answers of
`ikcp_recv`. -/
inductive Action where
  | iteration
  | datagram (recvs : List Int)
  deriving DecidableEq, Repr

/-- The session, and the iterations since the later of the last reception and the
last creation. -/
structure Watched where
  session : Session
  quiet : Nat
  deriving DecidableEq, Repr

def step (watched : Watched) : Action → Watched
  | .iteration =>
    let session := updateIteration watched.session
    ⟨session, if session.sessions = watched.session.sessions then watched.quiet + 1 else 0⟩
  | .datagram recvs =>
    ⟨recvLoop watched.session recvs, if received recvs then 0 else watched.quiet⟩

/-- The state after a run from the start. -/
def after (actions : List Action) : Watched := actions.foldl step ⟨udpKcpInit, 0⟩

/-- One more action is a step from where the others led. -/
theorem after_snoc (actions : List Action) (action : Action) :
    after (actions ++ [action]) = step (after actions) action := by
  simp only [after, List.foldl_append, List.foldl_cons, List.foldl_nil]

/-- Every iteration of a run that replaces the session comes after at least 5000
iterations without a reception or another replacement. -/
def ReplacedAfterSilence (actions : List Action) : Prop :=
  ∀ earlier, earlier ++ [.iteration] <+: actions →
    (updateIteration (after earlier).session).sessions ≠ (after earlier).session.sessions →
    5000 ≤ (after earlier).quiet

/-- No iteration begins with an expired count. -/
def Unexpired (watched : Watched) : Action → Prop
  | .iteration => watched.session.expired = false
  | .datagram _ => True

/-- The count is the silence, or the session has just been replaced. -/
def Counted (watched : Watched) : Prop :=
  watched.session.lastrecvtim.toNat ≤ 5000 ∧ watched.quiet = watched.session.lastrecvtim.toNat ∨
    watched.session.lastrecvtim.toNat = 5001 ∧ watched.quiet = 0

/-- Taking messages clears the count, if there are any. -/
theorem recv_loop_count (session : Session) (recvs : List Int) :
    (recvLoop session recvs).lastrecvtim = if received recvs then 0 else session.lastrecvtim := by
  have cleared : ∀ (recvs : List Int) (session : Session), session.lastrecvtim = 0 →
      (recvLoop session recvs).lastrecvtim = 0 := by
    intro recvs
    induction recvs with
    | nil => exact fun _ zero => zero
    | cons hr rest inductionHypothesis =>
      intro session zero
      rw [recvLoop]
      split
      · exact zero
      · exact inductionHypothesis _ rfl
  cases recvs with
  | nil => rfl
  | cons hr rest =>
    rw [recvLoop, received]
    by_cases none : hr ≤ 0
    · rw [if_pos none, if_neg (by simpa using none)]
    · rw [if_neg none, if_pos (by simpa using none)]
      exact cleared rest _ rfl

/-- The comparison of the source, on the numbers. -/
theorem expired_iff (session : Session) :
    session.expired = true ↔ 5000 < session.lastrecvtim.toNat := by
  simp [Session.expired, BitVec.lt_def]

/-- Away from the wrap the count goes up by one. -/
theorem count_below (session : Session) (below : session.lastrecvtim.toNat ≤ 5001) :
    session.count.lastrecvtim.toNat = session.lastrecvtim.toNat + 1 := by
  rw [Session.count, BitVec.toNat_add]
  exact Nat.mod_eq_of_lt (by simp; omega)

/-- An iteration that finds the count at most 4999 goes on counting. -/
theorem iteration_counts (watched : Watched) (below : watched.session.lastrecvtim.toNat < 5000) :
    step watched .iteration = ⟨watched.session.count, watched.quiet + 1⟩ := by
  have counted := count_below watched.session (by omega)
  have young : ¬ watched.session.count.expired = true := by
    rw [expired_iff]
    omega
  have kept : updateIteration watched.session = watched.session.count := if_neg young
  have same : watched.session.count.sessions = watched.session.sessions := rfl
  simp only [step, kept]
  rw [if_pos same]

/-- An iteration that finds the count at 5000 or just above replaces the session. -/
theorem iteration_replaces (watched : Watched) (reached : 5000 ≤ watched.session.lastrecvtim.toNat)
    (below : watched.session.lastrecvtim.toNat ≤ 5001) :
    step watched .iteration = ⟨initKCP watched.session.count, 0⟩ := by
  have counted := count_below watched.session below
  have old : watched.session.count.expired = true := by
    rw [expired_iff]
    omega
  have replaced : updateIteration watched.session = initKCP watched.session.count := if_pos old
  have another : (initKCP watched.session.count).sessions = watched.session.sessions + 1 := rfl
  simp only [step, replaced]
  rw [if_neg (by omega)]

/-- The iteration's replacement, seen from the step. -/
theorem replaced_of_step (watched : Watched)
    (taken : step watched .iteration = ⟨initKCP watched.session.count, 0⟩) :
    (updateIteration watched.session).sessions ≠ watched.session.sessions := by
  have session : updateIteration watched.session = initKCP watched.session.count :=
    congrArg Watched.session taken
  rw [session]
  simp [initKCP, Session.count]

/-- At first the count is right. -/
theorem start_counted : Counted ⟨udpKcpInit, 0⟩ := Or.inl ⟨by decide, rfl⟩

/-- Every step that begins with an unexpired count keeps the count right. -/
theorem step_counted (watched : Watched) (action : Action) (counted : Counted watched)
    (unexpired : Unexpired watched action) : Counted (step watched action) := by
  cases action with
  | iteration =>
    have young : watched.session.lastrecvtim.toNat ≤ 5000 := by
      have within : ¬ watched.session.expired = true := by simpa [Unexpired] using unexpired
      rw [expired_iff] at within
      omega
    have next := count_below watched.session (by omega)
    rcases counted with ⟨_, silence⟩ | ⟨replaced, _⟩
    · by_cases last : watched.session.lastrecvtim.toNat = 5000
      · rw [iteration_replaces watched (by omega) (by omega)]
        exact Or.inr ⟨by simp only [initKCP]; omega, rfl⟩
      · rw [iteration_counts watched (by omega)]
        exact Or.inl ⟨by simp only; omega, by simp only; omega⟩
    · omega
  | datagram recvs =>
    have cleared := recv_loop_count watched.session recvs
    cases message : received recvs with
    | true =>
      rw [message, if_pos rfl] at cleared
      refine Or.inl ⟨?_, ?_⟩ <;> simp [step, cleared, message]
    | false =>
      rw [message, if_neg (by decide)] at cleared
      simpa [Counted, step, cleared, message] using counted

/-- The count is right along a run, when from a right count each of its iterations
begins with an unexpired one. -/
theorem counted_along (actions : List Action)
    (unexpired : ∀ earlier action, earlier ++ [action] <+: actions → Counted (after earlier) →
      Unexpired (after earlier) action)
    (earlier : List Action) (within : earlier <+: actions) : Counted (after earlier) :=
  Runs.total_invariant Unexpired Counted step_counted ⟨udpKcpInit, 0⟩ actions start_counted
    unexpired earlier within

/-- A count that is expired before an iteration is that of a session just replaced,
and the iteration would replace it again. -/
theorem silent_unexpired (actions : List Action) (silent : ReplacedAfterSilence actions)
    (earlier : List Action) (action : Action) (within : earlier ++ [action] <+: actions)
    (counted : Counted (after earlier)) : Unexpired (after earlier) action := by
  cases action with
  | datagram recvs => trivial
  | iteration =>
    rw [Unexpired, ← Bool.not_eq_true, expired_iff]
    intro expired
    rcases counted with ⟨young, _⟩ | ⟨replaced, none⟩
    · omega
    · have again := replaced_of_step _ (iteration_replaces (after earlier) (by omega) (by omega))
      have quiet := silent earlier within again
      omega

/-- The session is replaced only after a full silence exactly when no iteration
begins with an expired count, that is, when a message arrives between each
replacement and the next iteration. -/
theorem replaced_after_silence_iff (actions : List Action) :
    ReplacedAfterSilence actions ↔
      Runs.Meets (Runs.total step) Unexpired ⟨udpKcpInit, 0⟩ actions := by
  rw [Runs.meets_total]
  change ReplacedAfterSilence actions ↔
    ∀ earlier action, earlier ++ [action] <+: actions → Unexpired (after earlier) action
  constructor
  · intro silent earlier action within
    have counted := counted_along actions (silent_unexpired actions silent) earlier
      ((List.prefix_append earlier _).trans within)
    exact silent_unexpired actions silent earlier action within counted
  · intro unexpired earlier within replaces
    have counted := counted_along actions
      (fun shorter action inside _ => unexpired shorter action inside) earlier
      ((List.prefix_append earlier _).trans within)
    have young : ¬ (after earlier).session.expired = true := by
      rw [unexpired earlier .iteration within]
      decide
    rw [expired_iff] at young
    -- below 5000 the iteration would only have counted
    have reached : ¬ (after earlier).session.lastrecvtim.toNat < 5000 := by
      intro below
      have counts : updateIteration (after earlier).session = (after earlier).session.count :=
        congrArg Watched.session (iteration_counts (after earlier) below)
      rw [counts] at replaces
      exact replaces rfl
    rcases counted with ⟨_, silence⟩ | ⟨expired, _⟩ <;> omega

/-- Iterations alone count up to 5000. -/
theorem iterations_count (count : Nat) (most : count ≤ 5000) :
    (after (List.replicate count .iteration)).session.lastrecvtim.toNat = count := by
  induction count with
  | zero => rfl
  | succ fewer inductionHypothesis =>
    have before := inductionHypothesis (by omega)
    rw [List.replicate_succ', after_snoc, iteration_counts _ (by omega)]
    rw [count_below _ (by omega), before]

/-- At 5000 the next two iterations both replace the session. -/
theorem replaces_twice (watched : Watched) (reached : watched.session.lastrecvtim.toNat = 5000) :
    (step watched .iteration).quiet = 0 ∧
      (updateIteration (step watched .iteration).session).sessions ≠
        (step watched .iteration).session.sessions := by
  have first := iteration_replaces watched (by omega) (by omega)
  have next : (step watched .iteration).session.lastrecvtim.toNat = 5001 := by
    rw [first]
    exact (count_below _ (by omega)).trans (by omega)
  exact ⟨congrArg Watched.quiet first,
    replaced_of_step _ (iteration_replaces _ (by omega) (by omega))⟩

/-- Without any reception the session is replaced in iteration 5001, and the new
one in the next iteration, where it has had no time at all. -/
theorem replaced_again_at_once : ¬ ReplacedAfterSilence (List.replicate 5002 .iteration) := by
  intro silent
  obtain ⟨none, again⟩ := replaces_twice _ (iterations_count 5000 (Nat.le_refl 5000))
  rw [← after_snoc] at none again
  have whole : (List.replicate 5000 Action.iteration ++ [.iteration]) ++ [.iteration] =
      List.replicate 5002 .iteration := by
    rw [← List.replicate_succ', ← List.replicate_succ']
  have silence := silent _ ⟨[], by rw [List.append_nil, whole]⟩ again
  rw [none] at silence
  exact absurd silence (by decide)

end IotCamera.Kcp
