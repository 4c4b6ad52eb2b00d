import Mathlib.Logic.Function.Basic
import IotCamera.Base.Runs

/-!
# The MQTT client

`mqtt.c`: one thread creates a client handle, connects it, waits to be told that
the connection was lost, destroys the handle and begins again; `connlost` is
called back by the library, clears the flag `conn` and signals the waiting
thread; `pubmsg` publishes while the flag is set. All three work under one mutex.

Each statement is one atomic step, with any number of callbacks and publishing
threads in any order. The wait releases the mutex and blocks in one step; it
returns after a signal, or without one, once the thread has the mutex again. The
thread does not look at the flag when the wait returns: the test of `conn` after
it has an empty body. So the flag stays set over the destruction of the handle
when nobody has called `connlost`, and that is the only way it can be wrong.

The handle is followed through the calls made on it: it is connected from a
successful `MQTTClient_connect` to the `MQTTClient_disconnect`.
-/

namespace IotCamera.Mqtt

/-- What has been done with the handle `mqttclient`. -/
inductive Handle where
  | absent
  | created
  | connected
  | disconnected
  | destroyed
  deriving DecidableEq, Repr

/-- The statement that `mqtt_client_thread` comes to next. The three places after
`wait` are inside `pthread_cond_wait`. -/
inductive Pc where
  | start
  | lock
  | create
  | connect
  | connectFailed
  | connectSucceeded
  | subscribe
  | wait
  | blocked
  | signalled
  | woken
  | testConn
  | disconnect
  | destroy
  | unlock
  deriving DecidableEq, Repr

/-- The statement that a call of `connlost` comes to next. -/
inductive Connlost where
  | outside
  | lock
  | clearConn
  | signal
  | unlock
  deriving DecidableEq, Repr

/-- The statement that a call of `pubmsg` comes to next. -/
inductive Pubmsg where
  | outside
  | lock
  | testConn
  | publishMessage
  | waitForCompletion
  | unlock
  deriving DecidableEq, Repr

/-- The holder of `mqttcMutex`. -/
inductive Owner where
  | client
  | connlost (call : Nat)
  | pubmsg (call : Nat)
  deriving DecidableEq, Repr

structure System where
  mqttcMutex : Option Owner
  conn : BitVec 8
  mqttclient : Handle
  pc : Pc
  connlosts : Nat → Connlost
  pubmsgs : Nat → Pubmsg

def System.init : System := ⟨none, 0, .absent, .start, fun _ => .outside, fun _ => .outside⟩

/-- A step of one of the parties. `connects` is the outcome of a connection
attempt, `wake` a return from the wait without a signal. -/
inductive Action where
  | client (connects : Bool)
  | wake
  | connlost (call : Nat)
  | pubmsg (call : Nat)
  deriving DecidableEq, Repr

/-- A use of the handle after its destruction. -/
inductive Fault where
  | destroyedClient
  deriving DecidableEq, Repr

/-- One statement of `mqtt_client_thread`. -/
def clientStep (system : System) (connects : Bool) : System :=
  match system.pc with
  | .start => { system with conn := 0, pc := .lock }
  | .lock =>
    if system.mqttcMutex = none then { system with mqttcMutex := some .client, pc := .create }
    else system
  | .create => { system with mqttclient := .created, pc := .connect }
  | .connect =>
    if connects then { system with mqttclient := .connected, pc := .connectSucceeded }
    else { system with pc := .connectFailed }
  | .connectFailed => { system with conn := 0, pc := .disconnect }
  | .connectSucceeded => { system with conn := 1, pc := .subscribe }
  | .subscribe => { system with pc := .wait }
  | .wait => { system with mqttcMutex := none, pc := .blocked }
  | .blocked => system
  | .signalled | .woken =>
    if system.mqttcMutex = none then { system with mqttcMutex := some .client, pc := .testConn }
    else system
  | .testConn => { system with pc := .disconnect }
  | .disconnect =>
    { system with
      mqttclient := if system.mqttclient = .connected then .disconnected else system.mqttclient
      pc := .destroy }
  | .destroy => { system with mqttclient := .destroyed, pc := .unlock }
  | .unlock => { system with mqttcMutex := none, pc := .lock }

/-- Move one call of `connlost`. -/
def System.connlostAt (system : System) (call : Nat) (place : Connlost) : System :=
  { system with connlosts := Function.update system.connlosts call place }

/-- Move one call of `pubmsg`. -/
def System.pubmsgAt (system : System) (call : Nat) (place : Pubmsg) : System :=
  { system with pubmsgs := Function.update system.pubmsgs call place }

/-- One statement of a call of `connlost`; the first one is the call itself. -/
def connlostStep (system : System) (call : Nat) : System :=
  match system.connlosts call with
  | .outside => system.connlostAt call .lock
  | .lock =>
    if system.mqttcMutex = none then
      { system.connlostAt call .clearConn with mqttcMutex := some (.connlost call) }
    else system
  | .clearConn => { system.connlostAt call .signal with conn := 0 }
  | .signal =>
    { system.connlostAt call .unlock with
      pc := if system.pc = .blocked then .signalled else system.pc }
  | .unlock => { system.connlostAt call .outside with mqttcMutex := none }

/-- One statement of a call of `pubmsg`; the first one is the call itself. -/
def pubmsgStep (system : System) (call : Nat) : Except (Fault × System) System :=
  match system.pubmsgs call with
  | .outside => .ok (system.pubmsgAt call .lock)
  | .lock =>
    if system.mqttcMutex = none then
      .ok { system.pubmsgAt call .testConn with mqttcMutex := some (.pubmsg call) }
    else .ok system
  | .testConn => .ok (system.pubmsgAt call (if system.conn = 1 then .publishMessage else .unlock))
  | .publishMessage =>
    if system.mqttclient = .destroyed then .error (.destroyedClient, system)
    else .ok (system.pubmsgAt call .waitForCompletion)
  | .waitForCompletion =>
    if system.mqttclient = .destroyed then .error (.destroyedClient, system)
    else .ok (system.pubmsgAt call .unlock)
  | .unlock => .ok { system.pubmsgAt call .outside with mqttcMutex := none }

def step (system : System) : Action → Except (Fault × System) System
  | .client connects => .ok (clientStep system connects)
  | .wake => .ok { system with pc := if system.pc = .blocked then .woken else system.pc }
  | .connlost call => .ok (connlostStep system call)
  | .pubmsg call => pubmsgStep system call

/-- At every point of a run: no message was published through a destroyed client,
and the flag is set over a free mutex only for a connected client. -/
def Truthful (actions : List Action) : Prop :=
  ∀ earlier, earlier <+: actions →
    ∃ system, Runs.run step System.init earlier = .ok system ∧
      (system.mqttcMutex = none → system.conn = 1 → system.mqttclient = .connected)

/-- The wait returns only when the flag has been cleared. -/
def Told (system : System) : Action → Prop
  | .client _ => system.pc = .signalled ∨ system.pc = .woken → system.mqttcMutex = none →
    system.conn = 0
  | _ => True

instance (system : System) (action : Action) : Decidable (Told system action) :=
  match action with
  | .client _ => inferInstanceAs (Decidable (_ → _ → _))
  | .wake | .connlost _ | .pubmsg _ => isTrue trivial

/-- Whether the thread has the mutex. -/
def Pc.holds : Pc → Bool
  | .start | .lock | .blocked | .signalled | .woken => false
  | _ => true

def Connlost.holds : Connlost → Bool
  | .outside | .lock => false
  | _ => true

def Pubmsg.holds : Pubmsg → Bool
  | .outside | .lock => false
  | _ => true

/-- Whether a call of `pubmsg` is about to use the handle. -/
def Pubmsg.publishes : Pubmsg → Bool
  | .publishMessage | .waitForCompletion => true
  | _ => false

/-- From the successful connection to the return of the wait the handle is
connected; at every other statement the flag is clear. -/
def Knows (conn : BitVec 8) (mqttclient : Handle) : Pc → Prop
  | .connectSucceeded | .subscribe | .wait | .blocked | .signalled | .woken => mqttclient = .connected
  | _ => conn = 0

structure Invariant (system : System) : Prop where
  knows : Knows system.conn system.mqttclient system.pc
  client : system.pc.holds = true → system.mqttcMutex = some .client
  connlost : ∀ call, (system.connlosts call).holds = true → system.mqttcMutex = some (.connlost call)
  pubmsg : ∀ call, (system.pubmsgs call).holds = true → system.mqttcMutex = some (.pubmsg call)
  publishing : ∀ call, (system.pubmsgs call).publishes = true → system.mqttclient = .connected

/-- At first nobody has the mutex or uses the handle. -/
theorem init_invariant : Invariant System.init where
  knows := rfl
  client := fun held => by cases held
  connlost := fun _ held => by cases held
  pubmsg := fun _ held => by cases held
  publishing := fun _ uses => by cases uses

/-- A set flag means a connected handle. -/
theorem knows_connected (conn : BitVec 8) (mqttclient : Handle) (pc : Pc)
    (knows : Knows conn mqttclient pc) (flag : conn = 1) : mqttclient = .connected := by
  subst flag
  cases pc <;> first | exact knows | cases knows

/-- Clearing the flag takes nothing away. -/
theorem knows_cleared (conn : BitVec 8) (mqttclient : Handle) (pc : Pc)
    (knows : Knows conn mqttclient pc) : Knows 0 mqttclient pc := by
  cases pc <;> first | exact knows | rfl

/-- A call of `pubmsg` that is about to use the handle has the mutex. -/
theorem publishes_holds (place : Pubmsg) (uses : place.publishes = true) : place.holds = true := by
  cases place <;> first | rfl | cases uses

section Moves
variable {system : System}

/-- Whoever takes the mutex takes it free, and whoever gives it back has it. -/
theorem owner_kept (mutex : Option Owner) (mine other : Owner) (different : other ≠ mine)
    (taken : mutex = system.mqttcMutex ∨ system.mqttcMutex = none ∨ system.mqttcMutex = some mine)
    (held : system.mqttcMutex = some other) : mutex = some other := by
  rcases taken with same | free | own
  · exact same.trans held
  · rw [free] at held
    cases held
  · exact absurd (Option.some.inj (held.symm.trans own)) different

/-- A statement of `mqtt_client_thread`: it changes the handle only while it has
the mutex. -/
theorem client_moved (invariant : Invariant system) (mutex : Option Owner) (conn : BitVec 8)
    (mqttclient : Handle) (pc : Pc)
    (taken : mutex = system.mqttcMutex ∨ system.mqttcMutex = none ∨
      system.mqttcMutex = some .client)
    (holds : pc.holds = true → mutex = some .client) (knows : Knows conn mqttclient pc)
    (kept : mqttclient = system.mqttclient ∨ system.mqttcMutex = some .client) :
    Invariant { system with
      mqttcMutex := mutex
      conn := conn
      mqttclient := mqttclient
      pc := pc } where
  knows := knows
  client := holds
  connlost := fun call held =>
    owner_kept mutex .client _ (by simp) taken (invariant.connlost call held)
  pubmsg := fun call held => owner_kept mutex .client _ (by simp) taken (invariant.pubmsg call held)
  publishing := fun call uses => by
    have owner := invariant.pubmsg call (publishes_holds _ uses)
    rcases kept with same | mine
    · exact same.trans (invariant.publishing call uses)
    · rw [mine] at owner
      cases owner

/-- A statement of `connlost`: it may clear the flag and signal. -/
theorem connlost_moved (invariant : Invariant system) (call : Nat) (place : Connlost)
    (mutex : Option Owner) (conn : BitVec 8) (pc : Pc)
    (taken : mutex = system.mqttcMutex ∨ system.mqttcMutex = none ∨
      system.mqttcMutex = some (.connlost call))
    (holds : place.holds = true → mutex = some (.connlost call))
    (knows : Knows conn system.mqttclient pc) (same : pc.holds = system.pc.holds) :
    Invariant { system.connlostAt call place with
      mqttcMutex := mutex
      conn := conn
      pc := pc } where
  knows := knows
  client := fun held => by
    rw [same] at held
    exact owner_kept mutex (.connlost call) _ (by simp) taken (invariant.client held)
  connlost := fun other held => by
    by_cases own : other = call
    · subst own
      exact holds ((congrArg Connlost.holds (Function.update_self ..)).symm.trans held)
    · have before : (system.connlosts other).holds = true :=
        (congrArg Connlost.holds (Function.update_of_ne own ..)).symm.trans held
      exact owner_kept mutex (.connlost call) _ (by simpa using own) taken
        (invariant.connlost other before)
  pubmsg := fun other held =>
    owner_kept mutex (.connlost call) _ (by simp) taken (invariant.pubmsg other held)
  publishing := invariant.publishing

/-- A statement of `pubmsg`: it changes nothing but its own place and the mutex. -/
theorem pubmsg_moved (invariant : Invariant system) (call : Nat) (place : Pubmsg)
    (mutex : Option Owner)
    (taken : mutex = system.mqttcMutex ∨ system.mqttcMutex = none ∨
      system.mqttcMutex = some (.pubmsg call))
    (holds : place.holds = true → mutex = some (.pubmsg call))
    (publishes : place.publishes = true → system.mqttclient = .connected) :
    Invariant { system.pubmsgAt call place with mqttcMutex := mutex } where
  knows := invariant.knows
  client := fun held => owner_kept mutex (.pubmsg call) _ (by simp) taken (invariant.client held)
  connlost := fun other held =>
    owner_kept mutex (.pubmsg call) _ (by simp) taken (invariant.connlost other held)
  pubmsg := fun other held => by
    by_cases own : other = call
    · subst own
      exact holds ((congrArg Pubmsg.holds (Function.update_self ..)).symm.trans held)
    · have before : (system.pubmsgs other).holds = true :=
        (congrArg Pubmsg.holds (Function.update_of_ne own ..)).symm.trans held
      exact owner_kept mutex (.pubmsg call) _ (by simpa using own) taken
        (invariant.pubmsg other before)
  publishing := fun other uses => by
    by_cases own : other = call
    · subst own
      exact publishes ((congrArg Pubmsg.publishes (Function.update_self ..)).symm.trans uses)
    · exact invariant.publishing other
        ((congrArg Pubmsg.publishes (Function.update_of_ne own ..)).symm.trans uses)

/-- Every statement of `mqtt_client_thread` keeps the invariant, when the wait
returns only with a cleared flag. -/
theorem client_invariant (invariant : Invariant system) (connects : Bool)
    (told : Told system (.client connects)) : Invariant (clientStep system connects) := by
  have knows := invariant.knows
  have holds := invariant.client
  cases stands : system.pc with
  | start =>
    simp only [clientStep, stands]
    exact client_moved invariant _ _ _ _ (Or.inl rfl) (fun held => by cases held) rfl (Or.inl rfl)
  | lock =>
    rw [stands] at knows
    simp only [clientStep, stands]
    split
    · rename_i free
      exact client_moved invariant _ _ _ _ (Or.inr (Or.inl free)) (fun _ => rfl) knows (Or.inl rfl)
    · exact invariant
  | create =>
    rw [stands] at knows holds
    simp only [clientStep, stands]
    exact client_moved invariant _ _ _ _ (Or.inl rfl) (fun _ => holds rfl) knows (Or.inr (holds rfl))
  | connect =>
    rw [stands] at knows holds
    simp only [clientStep, stands]
    split
    · exact client_moved invariant _ _ _ _ (Or.inl rfl) (fun _ => holds rfl) rfl (Or.inr (holds rfl))
    · exact client_moved invariant _ _ _ _ (Or.inl rfl) (fun _ => holds rfl) knows (Or.inl rfl)
  | connectFailed =>
    rw [stands] at holds
    simp only [clientStep, stands]
    exact client_moved invariant _ _ _ _ (Or.inl rfl) (fun _ => holds rfl) rfl (Or.inl rfl)
  | connectSucceeded | subscribe | testConn =>
    rw [stands] at knows holds
    simp only [clientStep, stands]
    exact client_moved invariant _ _ _ _ (Or.inl rfl) (fun _ => holds rfl) knows (Or.inl rfl)
  | wait =>
    rw [stands] at knows holds
    simp only [clientStep, stands]
    exact client_moved invariant _ _ _ _ (Or.inr (Or.inr (holds rfl))) (fun held => by cases held)
      knows (Or.inl rfl)
  | blocked =>
    simp only [clientStep, stands]
    exact invariant
  | signalled | woken =>
    simp only [clientStep, stands]
    split
    · rename_i free
      exact client_moved invariant _ _ _ _ (Or.inr (Or.inl free)) (fun _ => rfl)
        (told (by simp [stands]) free) (Or.inl rfl)
    · exact invariant
  | disconnect | destroy =>
    rw [stands] at knows holds
    simp only [clientStep, stands]
    exact client_moved invariant _ _ _ _ (Or.inl rfl) (fun _ => holds rfl) knows (Or.inr (holds rfl))
  | unlock =>
    rw [stands] at knows holds
    simp only [clientStep, stands]
    exact client_moved invariant _ _ _ _ (Or.inr (Or.inr (holds rfl))) (fun held => by cases held)
      knows (Or.inl rfl)

/-- Every statement of `connlost` keeps the invariant. -/
theorem connlost_invariant (invariant : Invariant system) (call : Nat) :
    Invariant (connlostStep system call) := by
  have knows := invariant.knows
  have holds := invariant.connlost call
  cases stands : system.connlosts call with
  | outside =>
    simp only [connlostStep, stands]
    exact connlost_moved invariant call _ _ _ _ (Or.inl rfl) (fun held => by cases held) knows rfl
  | lock =>
    simp only [connlostStep, stands]
    split
    · rename_i free
      exact connlost_moved invariant call _ _ _ _ (Or.inr (Or.inl free)) (fun _ => rfl) knows rfl
    · exact invariant
  | clearConn =>
    rw [stands] at holds
    simp only [connlostStep, stands]
    exact connlost_moved invariant call _ _ _ _ (Or.inl rfl) (fun _ => holds rfl)
      (knows_cleared _ _ _ knows) rfl
  | signal =>
    rw [stands] at holds
    simp only [connlostStep, stands]
    refine connlost_moved invariant call _ _ _ _ (Or.inl rfl) (fun _ => holds rfl) ?_ ?_
    · split
      · rename_i blocked
        rwa [blocked] at knows
      · exact knows
    · split
      · rename_i blocked
        rw [blocked]
        rfl
      · rfl
  | unlock =>
    rw [stands] at holds
    simp only [connlostStep, stands]
    exact connlost_moved invariant call _ _ _ _ (Or.inr (Or.inr (holds rfl)))
      (fun held => by cases held) knows rfl

/-- Every statement of `pubmsg` returns and keeps the invariant. -/
theorem pubmsg_invariant (invariant : Invariant system) (call : Nat) :
    ∃ next, pubmsgStep system call = .ok next ∧ Invariant next := by
  have holds := invariant.pubmsg call
  have publishing := invariant.publishing call
  cases stands : system.pubmsgs call with
  | outside =>
    simp only [pubmsgStep, stands]
    exact ⟨_, rfl, pubmsg_moved invariant call _ _ (Or.inl rfl) (fun held => by cases held)
      (fun uses => by cases uses)⟩
  | lock =>
    simp only [pubmsgStep, stands]
    split
    · rename_i free
      exact ⟨_, rfl, pubmsg_moved invariant call _ _ (Or.inr (Or.inl free)) (fun _ => rfl)
        (fun uses => by cases uses)⟩
    · exact ⟨_, rfl, invariant⟩
  | testConn =>
    rw [stands] at holds
    simp only [pubmsgStep, stands]
    refine ⟨_, rfl, pubmsg_moved invariant call _ _ (Or.inl rfl) (fun _ => holds rfl) ?_⟩
    split
    · rename_i flag
      exact fun _ => knows_connected _ _ _ invariant.knows flag
    · exact fun uses => by cases uses
  | publishMessage | waitForCompletion =>
    rw [stands] at holds publishing
    have connected := publishing rfl
    simp only [pubmsgStep, stands, connected, reduceCtorEq, ↓reduceIte]
    exact ⟨_, rfl, pubmsg_moved invariant call _ _ (Or.inl rfl) (fun _ => holds rfl)
      (fun _ => connected)⟩
  | unlock =>
    rw [stands] at holds
    simp only [pubmsgStep, stands]
    exact ⟨_, rfl, pubmsg_moved invariant call _ _ (Or.inr (Or.inr (holds rfl)))
      (fun held => by cases held) (fun uses => by cases uses)⟩

end Moves

/-- Every step returns and keeps the invariant, when the wait returns only with a
cleared flag. -/
theorem step_invariant (system : System) (action : Action) (invariant : Invariant system)
    (told : Told system action) : ∃ next, step system action = .ok next ∧ Invariant next := by
  cases action with
  | client connects => exact ⟨_, rfl, client_invariant invariant connects told⟩
  | wake =>
    simp only [step]
    split
    · rename_i blocked
      have knows := invariant.knows
      rw [blocked] at knows
      exact ⟨_, rfl, client_moved invariant _ _ _ _ (Or.inl rfl) (fun held => by cases held) knows
        (Or.inl rfl)⟩
    · exact ⟨_, rfl, invariant⟩
  | connlost call => exact ⟨_, rfl, connlost_invariant invariant call⟩
  | pubmsg call => exact pubmsg_invariant invariant call

/-- The flag is truthful along every run in which the wait returns only after
`connlost` has cleared it. -/
theorem flag_truthful_when_told (actions : List Action)
    (told : Runs.Meets step Told System.init actions) : Truthful actions := by
  intro earlier within
  obtain ⟨system, run, invariant⟩ := Runs.run_returns Told Invariant step_invariant System.init
    earlier init_invariant (Runs.meets_prefix Told _ earlier actions within told)
  exact ⟨system, run, fun _ flag => knows_connected _ _ _ invariant.knows flag⟩

/-- Statements of `mqtt_client_thread` while every attempt to connect succeeds. -/
def clients (count : Nat) : List Action := List.replicate count (.client true)

/-- A connection, a message, and a lost connection. -/
theorem flag_truthful_lost :
    Truthful (clients 7 ++ (List.replicate 6 (.pubmsg 0) ++ (List.replicate 5 (.connlost 0) ++
      clients 5))) :=
  flag_truthful_when_told _ (by decide)

/-- The wait returns without a signal: the flag is set over a destroyed client,
and `pubmsg` publishes through it. -/
theorem spurious_wake_publishes :
    ¬ Truthful (clients 7 ++ (.wake :: clients 5)) ∧
      Runs.reason (Runs.run step System.init
        (clients 7 ++ (.wake :: (clients 5 ++ List.replicate 4 (.pubmsg 0))))) =
        some .destroyedClient := by
  constructor
  · intro truthful
    obtain ⟨system, run, connected⟩ := truthful _ (List.prefix_refl _)
    obtain rfl := Except.ok.inj run
    exact absurd (connected rfl rfl) (by decide)
  · decide

end IotCamera.Mqtt
