import IotCamera.Rtmp.Threads

/-!
# Writes to a dead connection

What the loop knows about the handle at each of its statements, whatever the
media threads do to the status meanwhile: it can be overwritten with a connection
error at any time and with nothing else. From this, a media thread that has
passed its test has a live handle to write to, as long as the loop does not
destroy it before the write and the test did not fall into a teardown.
-/

namespace IotCamera.Rtmp

/-- The pusher has a live handle. -/
def Held (push : CRtmpPush) : Prop := ∃ handle, push.rtmp = some handle ∧ Live push.calls handle

/-- Handles are numbered as they are created, and only those are destroyed. -/
structure Numbered (calls : List SrsCall) : Prop where
  created_range : created calls = List.range (created calls).length
  destroyed_created : ∀ handle ∈ destroyed calls, handle ∈ created calls

/-- What holds of the pusher when the loop comes to a statement. -/
def Stands (push : CRtmpPush) : Pc → Prop
  | .switchStatus | .testExit =>
    (push.rtmp ≠ none → Held push) ∧ (push.status = .connected → Held push) ∧
      (push.status = .stopPush ∨ push.status = .connInit → push.rtmp = none)
  | .testStart | .leaveStopped | .create | .reconnect =>
    push.rtmp = none ∧ push.status ≠ .connected
  | .setTimeout | .handshake | .connectApp | .publishStream | .connect =>
    Held push ∧ push.status ≠ .connected
  | .testRtmp purpose =>
    (push.rtmp ≠ none → Held push) ∧ (push.status = .connected → purpose = .exiting ∧ Held push)
  | .destroy purpose => Held push ∧ (push.status = .connected → purpose = .exiting)
  | .clear purpose =>
    ¬ Held push ∧ (push.status = .connected → purpose = .exiting)
  | .stop => push.rtmp = none

/-- The loop's own facts, and a live handle for every thread about to write. -/
structure Safe (system : System) : Prop where
  numbered : Numbered system.push.calls
  stands : Stands system.push system.pc
  writing : ∀ media frame, system.writers media = .writing frame → Held system.push

def Pc.destroys : Pc → Bool
  | .destroy _ => true
  | _ => false

/-- Between the destruction of the handle and the next assignment of the status. -/
def Pc.tearingDown : Pc → Bool
  | .clear _ | .stop => true
  | _ => false

def Writer.isWriting : Writer → Bool
  | .writing _ => true
  | _ => false

/-- The loop does not destroy the handle while a media thread stands between its
test and its write, and no media thread finds the status connected while the loop
is tearing down. -/
def Apart (system : System) : ThreadAction → Prop
  | .loop _ => system.pc.destroys = true →
    (system.writers .video).isWriting = false ∧ (system.writers .audio).isWriting = false
  | .test media _ => system.writers media = .outside → system.push.status = .connected →
    system.pc.tearingDown = false
  | _ => True

instance (system : System) (action : ThreadAction) : Decidable (Apart system action) :=
  match action with
  | .loop _ => inferInstanceAs (Decidable (_ → _ ∧ _))
  | .test _ _ => inferInstanceAs (Decidable (_ → _ → _))
  | .startPush | .stopPush | .write _ _ | .report _ => isTrue trivial

/-- A call that neither creates nor destroys leaves the handle as it was. -/
theorem held_call (push : CRtmpPush) (call : SrsCall) (plain : call.plain = true) :
    Held (push.call call) ↔ Held push := by
  simp only [Held, Live, CRtmpPush.call, created_plain _ call plain, destroyed_plain _ call plain]

/-- A call that creates nothing keeps the handles numbered. -/
theorem numbered_call (calls : List SrsCall) (call : SrsCall) (plain : call.plain = true)
    (numbered : Numbered calls) : Numbered (calls ++ [call]) := by
  refine ⟨?_, ?_⟩
  · simpa only [created_plain calls call plain] using numbered.created_range
  · simpa only [created_plain calls call plain, destroyed_plain calls call plain] using
      numbered.destroyed_created

/-- A new handle is live. -/
theorem created_held (push : CRtmpPush) (succeeds : Bool) (numbered : Numbered push.calls) :
    Numbered (push.create succeeds).calls ∧
      ((push.create succeeds).rtmp ≠ none → Held (push.create succeeds)) := by
  have range := numbered.created_range
  have known := numbered.destroyed_created
  cases succeeds with
  | false =>
    refine ⟨⟨?_, ?_⟩, fun impossible => absurd rfl impossible⟩
    · simpa [CRtmpPush.create, CRtmpPush.call] using range
    · simpa [CRtmpPush.create, CRtmpPush.call] using known
  | true =>
    refine ⟨⟨?_, ?_⟩, fun _ => ⟨_, rfl, ?_, ?_⟩⟩
    · simp only [CRtmpPush.create, CRtmpPush.call, created_snoc, ↓reduceIte, Option.toList_some,
        List.length_append, List.length_singleton, List.range_succ]
      rw [← range]
    · intro handle gone
      have before : handle ∈ destroyed push.calls := by
        simpa [CRtmpPush.create, CRtmpPush.call] using gone
      simp [CRtmpPush.create, CRtmpPush.call, known handle before]
    · simp [CRtmpPush.create, CRtmpPush.call]
    · intro gone
      have before : (created push.calls).length ∈ destroyed push.calls := by
        simpa [CRtmpPush.create, CRtmpPush.call] using gone
      have fresh := known _ before
      rw [range] at fresh
      simp at fresh

/-- A destroyed handle is dead. -/
theorem destroyed_held (push : CRtmpPush) (held : Held push) (numbered : Numbered push.calls) :
    Numbered (push.call (.destroy push.rtmp)).calls ∧ ¬ Held (push.call (.destroy push.rtmp)) := by
  obtain ⟨handle, holds, live⟩ := held
  refine ⟨⟨?_, ?_⟩, ?_⟩
  · simpa [CRtmpPush.call] using numbered.created_range
  · intro other gone
    rcases List.mem_append.mp (by simpa [CRtmpPush.call, holds] using gone :
      other ∈ destroyed push.calls ++ [handle]) with before | now
    · simpa [CRtmpPush.call] using numbered.destroyed_created other before
    · obtain rfl := List.mem_singleton.mp now
      simpa [CRtmpPush.call] using live.1
  · rintro ⟨other, same, _, kept⟩
    obtain rfl : handle = other := Option.some.inj (holds.symm.trans same)
    exact kept (by simp [CRtmpPush.call, holds])

/-- Without a handle and a connection the loop may come round. -/
theorem vacant_stands (push : CRtmpPush) (vacant : push.rtmp = none)
    (status : push.status ≠ .connected) : Stands push .switchStatus :=
  ⟨fun held => absurd vacant held, fun connected => absurd connected status, fun _ => vacant⟩

/-- After a cleanup the loop goes on without a handle. -/
theorem purpose_stands (push : CRtmpPush) (purpose : Purpose) (vacant : push.rtmp = none)
    (connected : push.status = .connected → purpose = .exiting) : Stands push purpose.next := by
  cases purpose with
  | failed => exact vacant_stands push vacant fun status => by cases connected status
  | lost => exact ⟨vacant, fun status => by cases connected status⟩
  | exiting => exact vacant

/-- A call of `open_url` with a live handle. -/
theorem attempted_stands (push : CRtmpPush) (ret : Int) (next : Pc) (held : Held push)
    (status : push.status ≠ .connected) (goes : Stands push next) : Stands push (attempted ret next) := by
  unfold attempted
  split
  · exact ⟨fun _ => held, fun connected => absurd connected status⟩
  · exact goes

/-- Each statement of the loop keeps what the loop knows, and only the
destruction takes a live handle away. -/
theorem statement_stands (push : CRtmpPush) (outcomes : Outcomes) (pc : Pc)
    (numbered : Numbered push.calls) (stands : Stands push pc) :
    Numbered (statement push outcomes pc).1.calls ∧
      Stands (statement push outcomes pc).1 (statement push outcomes pc).2 ∧
      (Held push → pc.destroys = false → Held (statement push outcomes pc).1) := by
  cases pc with
  | switchStatus =>
    obtain ⟨valid, connected, vacant⟩ := stands
    cases status : push.status with
    | stopPush | connInit =>
      simp only [statement, status]
      exact ⟨numbered, ⟨vacant (by simp [status]), by simp [status]⟩, fun held _ => held⟩
    | connected =>
      simp only [statement, status]
      exact ⟨numbered, ⟨valid, connected, vacant⟩, fun held _ => held⟩
    | connErr =>
      simp only [statement, status]
      exact ⟨numbered, ⟨valid, by simp [status]⟩, fun held _ => held⟩
    | runStatusStart | runStatusExit | runStatusEnd =>
      simp only [statement, status]
      exact ⟨numbered, ⟨valid, connected, vacant⟩, fun held _ => held⟩
  | testStart =>
    obtain ⟨vacant, status⟩ := stands
    refine ⟨numbered, ?_, fun held _ => held⟩
    simp only [statement]
    split
    · exact ⟨vacant, status⟩
    · exact vacant_stands push vacant status
  | leaveStopped =>
    obtain ⟨vacant, _⟩ := stands
    exact ⟨numbered, vacant_stands _ vacant (by simp [statement]), fun held _ => held⟩
  | create =>
    obtain ⟨vacant, status⟩ := stands
    obtain ⟨numbered', valid⟩ := created_held push outcomes.create numbered
    refine ⟨numbered', ?_, fun held => ?_⟩
    · simp only [statement]
      split
      · exact ⟨valid, fun connected => absurd connected status⟩
      · rename_i held
        exact ⟨valid held, status⟩
    · obtain ⟨handle, holds, _⟩ := held
      rw [vacant] at holds
      cases holds
  | setTimeout =>
    obtain ⟨held, status⟩ := stands
    have kept := (held_call push (.setTimeout push.rtmp timeout timeout) rfl).mpr held
    exact ⟨numbered_call _ _ rfl numbered, ⟨kept, status⟩, fun _ _ => kept⟩
  | handshake =>
    obtain ⟨held, status⟩ := stands
    have kept := (held_call push (.handshake push.rtmp) rfl).mpr held
    exact ⟨numbered_call _ _ rfl numbered,
      attempted_stands _ _ _ kept status ⟨kept, status⟩, fun _ _ => kept⟩
  | connectApp =>
    obtain ⟨held, status⟩ := stands
    have kept := (held_call push (.connectApp push.rtmp) rfl).mpr held
    exact ⟨numbered_call _ _ rfl numbered,
      attempted_stands _ _ _ kept status ⟨kept, status⟩, fun _ _ => kept⟩
  | publishStream =>
    obtain ⟨held, status⟩ := stands
    have kept := (held_call push (.publishStream push.rtmp) rfl).mpr held
    exact ⟨numbered_call _ _ rfl numbered,
      attempted_stands _ _ _ kept status ⟨kept, status⟩, fun _ _ => kept⟩
  | connect =>
    obtain ⟨held, _⟩ := stands
    exact ⟨numbered, ⟨fun _ => held, fun _ => held, fun status => by simp [statement] at status⟩,
      fun _ _ => held⟩
  | testRtmp purpose =>
    obtain ⟨valid, connected⟩ := stands
    refine ⟨numbered, ?_, fun held _ => held⟩
    simp only [statement]
    split
    · rename_i holds
      exact ⟨valid holds, fun status => (connected status).1⟩
    · rename_i vacant
      exact purpose_stands push purpose (by simpa using vacant) fun status => (connected status).1
  | destroy purpose =>
    obtain ⟨held, connected⟩ := stands
    obtain ⟨numbered', dead⟩ := destroyed_held push held numbered
    exact ⟨numbered', ⟨dead, connected⟩, fun _ impossible => by cases impossible⟩
  | clear purpose =>
    obtain ⟨dead, connected⟩ := stands
    exact ⟨numbered, purpose_stands _ purpose rfl connected, fun held => absurd held dead⟩
  | reconnect =>
    obtain ⟨vacant, _⟩ := stands
    exact ⟨numbered, vacant_stands _ vacant (by simp [statement]), fun held _ => held⟩
  | testExit =>
    obtain ⟨valid, connected, vacant⟩ := stands
    refine ⟨numbered, ?_, fun held _ => held⟩
    simp only [statement]
    split
    · exact ⟨valid, fun status => ⟨rfl, connected status⟩⟩
    · exact ⟨valid, connected, vacant⟩
  | stop =>
    have vacant : push.rtmp = none := stands
    exact ⟨numbered, vacant_stands _ vacant (by simp [statement]), fun held _ => held⟩

/-- A media thread that reports a lost connection disturbs nothing the loop knows. -/
theorem reported_stands (push : CRtmpPush) (pc : Pc) (stands : Stands push pc) :
    Stands { push with status := .connErr } pc := by
  cases pc with
  | switchStatus | testExit =>
    exact ⟨stands.1, fun status => absurd status (by simp), fun status => by simp at status⟩
  | testStart | leaveStopped | create | reconnect | setTimeout | handshake | connectApp
  | publishStream | connect => exact ⟨stands.1, fun status => by cases status⟩
  | testRtmp purpose | destroy purpose | clear purpose => exact ⟨stands.1, fun status => by cases status⟩
  | stop => exact stands

/-- What the loop knows is about the handle and the status alone. -/
theorem stands_congr (push push' : CRtmpPush) (pc : Pc) (rtmp : push'.rtmp = push.rtmp)
    (status : push'.status = push.status) (held : Held push' ↔ Held push)
    (stands : Stands push pc) : Stands push' pc := by
  cases pc <;> simpa only [Stands, rtmp, status, held] using stands

/-- A connected status that is not being torn down has a live handle. -/
theorem connected_held (push : CRtmpPush) (pc : Pc) (stands : Stands push pc)
    (connected : push.status = .connected) (kept : pc.tearingDown = false) : Held push := by
  cases pc with
  | switchStatus | testExit => exact stands.2.1 connected
  | testStart | leaveStopped | create | reconnect | setTimeout | handshake | connectApp
  | publishStream | connect => exact absurd connected stands.2
  | testRtmp purpose => exact (stands.2 connected).2
  | destroy purpose => exact stands.1
  | clear purpose | stop => cases kept

/-- A media thread moves while the handle stays: if it is about to write, the
handle is live. -/
theorem moved_safe (system : System) (safe : Safe system) (push : CRtmpPush) (media : Media)
    (writer : Writer) (numbered : Numbered push.calls) (stands : Stands push system.pc)
    (kept : Held system.push → Held push) (mine : ∀ frame, writer = .writing frame → Held push) :
    Safe { system.at media writer with push := push } := by
  refine ⟨numbered, stands, fun other frame place => ?_⟩
  by_cases same : other = media
  · subst same
    exact mine frame ((Function.update_self ..).symm.trans place)
  · exact kept (safe.writing other frame ((Function.update_of_ne same ..).symm.trans place))

/-- Every step that keeps writes and teardown apart returns and keeps the
invariant. -/
theorem thread_step_safe (system : System) (action : ThreadAction) (safe : Safe system)
    (apart : Apart system action) : ∃ next, threadStep system action = .ok next ∧ Safe next := by
  obtain ⟨numbered, stands, writing⟩ := safe
  cases action with
  | startPush => exact ⟨_, rfl, numbered, stands_congr _ _ _ rfl rfl Iff.rfl stands, writing⟩
  | stopPush =>
    refine ⟨_, rfl, ?_⟩
    unfold CRtmpPush.stopPush
    split
    · exact ⟨numbered, stands, writing⟩
    · exact ⟨numbered, stands_congr _ _ _ rfl rfl Iff.rfl stands, writing⟩
  | loop outcomes =>
    obtain ⟨numbered', stands', kept⟩ :=
      statement_stands system.push outcomes system.pc numbered stands
    refine ⟨_, rfl, numbered', stands', fun media frame place => ?_⟩
    refine kept (writing media frame place) ?_
    -- a thread about to write keeps the loop from destroying
    by_contra destroys
    obtain ⟨video, audio⟩ := apart (by simpa using destroys)
    cases media with
    | video =>
      rw [place] at video
      cases video
    | audio =>
      rw [place] at audio
      cases audio
  | test media frame =>
    have unchanged : Safe system := ⟨numbered, stands, writing⟩
    cases place : system.writers media with
    | outside =>
      by_cases connected : system.push.status = .connected
      · have held := connected_held _ _ stands connected (apart place connected)
        have moved := moved_safe system unchanged system.push media (.writing frame) numbered
          stands id fun _ _ => held
        exact ⟨_, by simp only [threadStep, place, connected, ↓reduceIte]; rfl, moved⟩
      · exact ⟨system, by simp only [threadStep, place, connected, ↓reduceIte], unchanged⟩
    | writing | reporting => exact ⟨system, by simp only [threadStep, place], unchanged⟩
  | write media wret =>
    have unchanged : Safe system := ⟨numbered, stands, writing⟩
    cases place : system.writers media with
    | writing frame =>
      obtain ⟨handle, holds, live⟩ := writing media frame place
      have plain : (media.call system.push.rtmp frame).plain = true := by cases media <;> rfl
      have kept := held_call system.push _ plain
      have moved := moved_safe system unchanged
        (system.push.call (media.call system.push.rtmp frame)) media
        (if wret = 1009 then .reporting else .outside) (numbered_call _ _ plain numbered)
        (stands_congr system.push _ _ rfl rfl kept stands) kept.mpr fun frame' impossible => by
          split at impossible <;> cases impossible
      refine ⟨_, ?_, moved⟩
      simp only [threadStep, place, holds, live.2, ↓reduceIte]
    | outside | reporting => exact ⟨system, by simp only [threadStep, place], unchanged⟩
  | report media =>
    have unchanged : Safe system := ⟨numbered, stands, writing⟩
    cases place : system.writers media with
    | reporting =>
      have moved := moved_safe system unchanged { system.push with status := .connErr } media
        .outside numbered (reported_stands _ _ stands) id fun _ impossible => by cases impossible
      exact ⟨_, by simp only [threadStep, place], moved⟩
    | outside | writing => exact ⟨system, by simp only [threadStep, place], unchanged⟩

/-- At first no thread is about to write. -/
theorem init_safe : Safe System.init where
  numbered := ⟨rfl, fun _ gone => by cases gone⟩
  stands := vacant_stands _ rfl (by decide)
  writing := fun _ _ impossible => by cases impossible

/-- No run writes to a missing or destroyed handle in which the loop destroys no
handle between a media thread's test and its write, and no media thread finds the
status connected between the destruction and the next assignment of the status. -/
theorem writes_alive_when_apart (actions : List ThreadAction)
    (apart : Runs.Meets threadStep Apart System.init actions) :
    ∃ system, Runs.run threadStep System.init actions = .ok system := by
  obtain ⟨system, run, _⟩ := Runs.run_returns Apart Safe thread_step_safe System.init actions
    init_safe apart
  exact ⟨system, run⟩

/-- Statements of the loop while every call on the library succeeds. -/
def loops (count : Nat) : List ThreadAction := List.replicate count (.loop ⟨true, 0, 0, 0⟩)

/-- A start, and the loop up to its first look at `run_status` once connected. -/
def connecting : List ThreadAction := .startPush :: loops 12

/-- Both media threads write before the loop comes to a stop. -/
theorem writes_alive_before_stop :
    ∃ system, Runs.run threadStep System.init (connecting ++
      (.test .video ⟨[], 0⟩ :: .test .audio ⟨[], 0⟩ :: .write .video 0 :: .write .audio 1009 ::
        .stopPush :: .report .audio :: loops 8)) = .ok system :=
  writes_alive_when_apart _ (by decide)

/-- The loop destroys the handle between the test and the write; and a test
between the clearing of the handle and the assignment of the status leads to a
write without a handle. -/
theorem writes_to_dead_handles :
    Runs.reason (Runs.run threadStep System.init (connecting ++
        (.test .video ⟨[], 0⟩ :: .stopPush :: (loops 3 ++ [.write .video 0])))) =
      some .destroyedHandle ∧
    Runs.reason (Runs.run threadStep System.init (connecting ++
        (.stopPush :: (loops 4 ++ [.test .video ⟨[], 0⟩, .write .video 0])))) =
      some .nullHandle := by
  decide

end IotCamera.Rtmp
