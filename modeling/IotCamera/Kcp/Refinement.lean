import IotCamera.Kcp.Locking

/-!
# The statements of the threads as whole operations

Under the lock no two of the threads work on the session at once, so the
interleaved statements of `udp_msg_sender`, `handle_update` and `sendKcpData` leave
the session as whole iterations and whole datagrams do, one after the other. An
operation counts where it ends. Until then the session is ahead of the whole
operations by what its statements have done so far.
-/

namespace IotCamera.Kcp.Locking

/-- `handle_update` has counted and not yet ended the iteration. -/
def Updater.counted : Updater → Bool
  | .update | .test | .release | .init => true
  | _ => false

/-- The session stands where whole operations have led, and the statements of the
operation in progress since. -/
structure Simulates (system : System) (session : Session) : Prop where
  idle : system.updater.counted = false → system.receiver ≠ .recv → system.session = session
  counted : system.updater.counted = true → system.session = session.count
  expired : system.updater = .release ∨ system.updater = .init → session.count.expired = true
  received : system.receiver = .recv →
    ∃ messages, (∀ hr ∈ messages, 0 < hr) ∧ system.session = recvLoop session messages

/-- While a datagram is handled the updater waits for the lock. -/
theorem updater_waits (system : System) (owned : Owned system)
    (receiving : system.receiver ≠ .recvfrom ∧ system.receiver ≠ .lock) :
    system.updater = .lock := by
  by_contra updating
  have first := owned .updater updating
  have second := owned .receiver receiving
  rw [first] at second
  cases second

section States
variable (system : System) (session : Session)

/-- Nobody works on the session. -/
theorem simulates_idle (quiet : system.updater.counted = false) (apart : system.receiver ≠ .recv)
    (same : system.session = session) : Simulates system session where
  idle _ _ := same
  counted busy := by
    rw [quiet] at busy
    cases busy
  expired place := by
    rcases place with release | init
    · rw [release] at quiet
      cases quiet
    · rw [init] at quiet
      cases quiet
  received place := absurd place apart

/-- An iteration is in progress. -/
theorem simulates_counted (busy : system.updater.counted = true) (apart : system.receiver ≠ .recv)
    (same : system.session = session.count)
    (expired : system.updater = .release ∨ system.updater = .init → session.count.expired = true) :
    Simulates system session where
  idle quiet _ := by
    rw [quiet] at busy
    cases busy
  counted _ := same
  expired := expired
  received place := absurd place apart

/-- Messages are being taken. -/
theorem simulates_received (waits : system.updater = .lock) (place : system.receiver = .recv)
    (messages : List Int) (positive : ∀ hr ∈ messages, 0 < hr)
    (taken : system.session = recvLoop session messages) : Simulates system session where
  idle _ apart := absurd place apart
  counted busy := by
    rw [waits] at busy
    cases busy
  expired early := by
    rw [waits] at early
    rcases early with release | init
    · cases release
    · cases init
  received _ := ⟨messages, positive, taken⟩

/-- What happens elsewhere does not matter. -/
theorem simulates_elsewhere (next : System) (simulates : Simulates system session)
    (same : next.session = system.session) (updater : next.updater = system.updater)
    (receiver : next.receiver = system.receiver ∨
      system.receiver ≠ .recv ∧ next.receiver ≠ .recv) : Simulates next session where
  idle quiet apart := by
    rw [updater] at quiet
    rw [same]
    rcases receiver with stays | ⟨before, _⟩
    · exact simulates.idle quiet (stays ▸ apart)
    · exact simulates.idle quiet before
  counted busy := by
    rw [updater] at busy
    rw [same]
    exact simulates.counted busy
  expired place := by
    rw [updater] at place
    exact simulates.expired place
  received place := by
    rw [same]
    rcases receiver with stays | ⟨_, apart⟩
    · exact simulates.received (stays ▸ place)
    · exact absurd place apart

end States

/-- One more message clears the count again. -/
theorem recv_loop_message (session : Session) (messages : List Int) (hr : Int)
    (positive : ∀ other ∈ messages, 0 < other) (message : 0 < hr) :
    recvLoop session (messages ++ [hr]) = { recvLoop session messages with lastrecvtim := 0 } := by
  induction messages generalizing session with
  | nil => simp [recvLoop, Int.not_le.mpr message]
  | cons first rest inductionHypothesis =>
    have more : ¬ first ≤ 0 := Int.not_le.mpr (positive first List.mem_cons_self)
    rw [List.cons_append, recvLoop, recvLoop, if_neg more, if_neg more]
    exact inductionHypothesis _ fun other member => positive other (List.mem_cons_of_mem first member)

/-- The answer that ends the loop changes nothing. -/
theorem recv_loop_end (session : Session) (messages : List Int) (hr : Int)
    (positive : ∀ other ∈ messages, 0 < other) (none : hr ≤ 0) :
    recvLoop session (messages ++ [hr]) = recvLoop session messages := by
  induction messages generalizing session with
  | nil => simp [recvLoop, none]
  | cons first rest inductionHypothesis =>
    have more : ¬ first ≤ 0 := Int.not_le.mpr (positive first List.mem_cons_self)
    rw [List.cons_append, recvLoop, recvLoop, if_neg more, if_neg more]
    exact inductionHypothesis _ fun other member => positive other (List.mem_cons_of_mem first member)

/-- The session after whole operations. -/
def completed (session : Session) : List Kcp.Action → Session
  | [] => session
  | .iteration :: rest => completed (updateIteration session) rest
  | .datagram recvs :: rest => completed (recvLoop session recvs) rest

section Threads
variable (system : System) (session : Session) (owned : Owned system)
  (simulates : Simulates system session)

include owned simulates

/-- The datagram is complete with the answer that ends the loop. -/
theorem receiver_refines (hr : Int) :
    ∃ operations, Simulates (receiverStep system hr) (completed session operations) := by
  cases place : system.receiver <;> simp only [receiverStep, place]
  case recvfrom =>
    split
    · exact ⟨[], simulates⟩
    · refine ⟨[], simulates_elsewhere system session _ simulates rfl rfl (.inr ?_)⟩
      simp [place]
  case lock =>
    split
    · refine ⟨[], simulates_elsewhere system session _ simulates rfl rfl (.inr ?_)⟩
      simp [place]
    · exact ⟨[], simulates⟩
  case input =>
    have waits := updater_waits system owned (by simp [place])
    have same := simulates.idle (by rw [waits]; rfl) (by simp [place])
    exact ⟨[], simulates_received _ session waits rfl [] (by simp) same⟩
  case recv =>
    have waits := updater_waits system owned (by simp [place])
    obtain ⟨messages, positive, taken⟩ := simulates.received place
    split
    case isTrue none =>
      have ended := recv_loop_end session messages hr positive none
      refine ⟨[.datagram (messages ++ [hr])], simulates_idle _ _ ?_ (by simp) ?_⟩
      · change system.updater.counted = false
        rw [waits]
        rfl
      · exact taken.trans ended.symm
    case isFalse some =>
      have message : 0 < hr := Int.not_le.mp some
      have more := recv_loop_message session messages hr positive message
      refine ⟨[], simulates_received _ session waits rfl (messages ++ [hr]) ?_ ?_⟩
      · intro other member
        rcases List.mem_append.mp member with earlier | last
        · exact positive other earlier
        · rw [List.mem_singleton.mp last]
          exact message
      · exact (congrArg (fun session => { session with lastrecvtim := 0 }) taken).trans more.symm
  case unlock =>
    refine ⟨[], simulates_elsewhere system session _ simulates rfl rfl (.inr ?_)⟩
    simp [place]

/-- The iteration is complete with its last statement. -/
theorem updater_refines :
    ∃ operations, Simulates (updaterStep system) (completed session operations) := by
  have apart : system.updater ≠ .lock → system.receiver ≠ .recv := by
    intro updating receiving
    exact updating (updater_waits system owned (by simp [receiving]))
  have counted := simulates.counted
  have idle := simulates.idle
  cases place : system.updater <;> rw [place] at apart counted idle <;>
    simp only [updaterStep, place]
  case lock =>
    split
    case isTrue free =>
      have alone : system.receiver ≠ .recv := by
        intro receiving
        have held := owned .receiver (by simp [System.Holds, receiving])
        rw [free] at held
        cases held
      exact ⟨[], simulates_idle _ session rfl alone (idle rfl alone)⟩
    case isFalse => exact ⟨[], simulates⟩
  case count =>
    have alone := apart (by decide)
    have same : system.session.count = session.count := congrArg Session.count (idle rfl alone)
    exact ⟨[], simulates_counted _ session rfl alone same (by simp)⟩
  case ended =>
    have alone := apart (by decide)
    have same : system.session.count = session.count := congrArg Session.count (idle rfl alone)
    exact ⟨[], simulates_counted _ session rfl alone same (by simp)⟩
  case update =>
    exact ⟨[], simulates_counted _ session rfl (apart (by decide)) (counted rfl) (by simp)⟩
  case test =>
    have alone := apart (by decide)
    have same := counted rfl
    split
    case isTrue old =>
      rw [same] at old
      exact ⟨[], simulates_counted _ session rfl alone same fun _ => old⟩
    case isFalse young =>
      rw [same] at young
      have kept : updateIteration session = session.count := if_neg young
      exact ⟨[.iteration], simulates_idle _ _ rfl alone (same.trans kept.symm)⟩
  case release =>
    have old := simulates.expired (.inl place)
    exact ⟨[], simulates_counted _ session rfl (apart (by decide)) (counted rfl) fun _ => old⟩
  case init =>
    have old := simulates.expired (.inr place)
    have replaced : updateIteration session = initKCP session.count := if_pos old
    have same : initKCP system.session = initKCP session.count := congrArg initKCP (counted rfl)
    exact ⟨[.iteration], simulates_idle _ _ rfl (apart (by decide)) (same.trans replaced.symm)⟩

end Threads

/-- A sender does not touch the session. -/
theorem sender_session (system : System) (thread : Nat) :
    (senderStep system thread).session = system.session := by
  unfold senderStep
  split <;> (try split) <;> rfl

/-- A step of a thread is some operations of the session, or none. -/
theorem step_refines (system : System) (session : Session) (action : Action) (owned : Owned system)
    (simulates : Simulates system session) :
    ∃ operations, Simulates (step system action) (completed session operations) := by
  cases action with
  | receiver hr => exact receiver_refines system session owned simulates hr
  | updater => exact updater_refines system session owned simulates
  | sender thread =>
    obtain ⟨receiver, updater, -⟩ := sender_frame system thread
    exact ⟨[], simulates_elsewhere system session _ simulates (sender_session system thread) updater
      (.inl receiver)⟩

/-- Operations in two parts are those of both, one after the other. -/
theorem completed_append (session : Session) (earlier later : List Kcp.Action) :
    completed session (earlier ++ later) = completed (completed session earlier) later := by
  induction earlier generalizing session with
  | nil => rfl
  | cons operation rest inductionHypothesis =>
    cases operation with
    | iteration => exact inductionHypothesis (updateIteration session)
    | datagram recvs => exact inductionHypothesis (recvLoop session recvs)

/-- Whole operations are the steps of the session's own runs. -/
theorem completed_after (operations : List Kcp.Action) :
    (Kcp.after operations).session = completed udpKcpInit operations := by
  induction operations using List.reverseRecOn with
  | nil => rfl
  | append_singleton earlier operation inductionHypothesis =>
    rw [Kcp.after_snoc, completed_append, ← inductionHypothesis]
    cases operation <;> rfl

/-- Every run of the threads is one of the session's runs of whole operations, up to
the operation in progress. -/
theorem session_refined (actions : List Action) :
    ∃ operations, Simulates (after actions) (Kcp.after operations).session := by
  induction actions using List.reverseRecOn with
  | nil => exact ⟨[], simulates_idle _ _ rfl (by decide) rfl⟩
  | append_singleton earlier action inductionHypothesis =>
    obtain ⟨operations, simulates⟩ := inductionHypothesis
    obtain ⟨more, next⟩ := step_refines (after earlier) _ action (after_owned earlier) simulates
    refine ⟨operations ++ more, ?_⟩
    rw [after_snoc, completed_after, completed_append, ← completed_after]
    exact next

end IotCamera.Kcp.Locking
