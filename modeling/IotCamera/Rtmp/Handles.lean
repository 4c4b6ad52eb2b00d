import IotCamera.Base.Logs
import IotCamera.Rtmp.Push

/-!
# The handles of the pusher

A handle is created in the middle of a connection attempt that can fail in four
ways, and destroyed from five places of the loop. The pusher owns at most one at
a time: the handles it has destroyed followed by the one it holds are the handles
it has created, in order. It holds one exactly in the two states in which it has
been connected, so every call finds the handle it needs and every attempt finds
none.
-/

namespace IotCamera.Rtmp

/-- Created and not destroyed. -/
def Live (calls : List SrsCall) (handle : Nat) : Prop :=
  handle ∈ created calls ∧ handle ∉ destroyed calls

/-- The handle a call is made with. -/
def SrsCall.handle : SrsCall → Option Nat
  | .create rtmp | .setTimeout rtmp _ _ | .handshake rtmp | .connectApp rtmp | .publishStream rtmp
  | .destroy rtmp | .h264WriteRawFrames rtmp _ | .adtsAacWriteRawFrame rtmp _ => rtmp

/-- A handle is created while none is live, and every other call is made with a
live handle. -/
def Permitted (before : List SrsCall) (call : SrsCall) : Prop :=
  match call with
  | .create _ => ∀ handle, ¬ Live before handle
  | _ => ∃ handle, call.handle = some handle ∧ Live before handle

/-- The handles destroyed and the handle held are the handles created. -/
structure Owns (push : CRtmpPush) : Prop where
  numbered : created push.calls = List.range (created push.calls).length
  owned : destroyed push.calls ++ push.rtmp.toList = created push.calls
  permitted : Logs.Each Permitted push.calls

/-- A handle is held exactly while the pusher counts as having been connected. -/
structure Invariant (push : CRtmpPush) : Prop extends Owns push where
  holding : push.rtmp ≠ none ↔ push.status = .connected ∨ push.status = .connErr

/-- The handles created with one more call. -/
@[simp] theorem created_snoc (calls : List SrsCall) (call : SrsCall) :
    created (calls ++ [call]) = created calls ++
      match call with
      | .create rtmp => rtmp.toList
      | _ => [] := by
  cases call with
  | create rtmp => cases rtmp <;> simp [created]
  | _ => simp [created]

/-- The handles destroyed with one more call. -/
@[simp] theorem destroyed_snoc (calls : List SrsCall) (call : SrsCall) :
    destroyed (calls ++ [call]) = destroyed calls ++
      match call with
      | .destroy rtmp => rtmp.toList
      | _ => [] := by
  cases call with
  | destroy rtmp => cases rtmp <;> simp [destroyed]
  | _ => simp [destroyed]

/-- Cleaning up leaves the status as it is. -/
@[simp] theorem cleanup_status (push : CRtmpPush) : push.cleanup.status = push.status := by
  unfold CRtmpPush.cleanup
  split <;> rfl

/-- So does opening the url. -/
theorem open_url_status (push : CRtmpPush) (outcomes : Outcomes) :
    (push.openUrl outcomes).1.status = push.status := by
  unfold CRtmpPush.openUrl
  dsimp only
  split
  · rfl
  · split
    · rfl
    · split <;> rfl

/-- Calls that neither create nor destroy a handle. -/
def SrsCall.plain : SrsCall → Bool
  | .create _ | .destroy _ => false
  | _ => true

/-- A call that is no creation creates nothing. -/
theorem created_plain (calls : List SrsCall) (call : SrsCall) (plain : call.plain = true) :
    created (calls ++ [call]) = created calls := by
  cases call <;> simp_all [SrsCall.plain]

/-- A call that is no destruction destroys nothing. -/
theorem destroyed_plain (calls : List SrsCall) (call : SrsCall) (plain : call.plain = true) :
    destroyed (calls ++ [call]) = destroyed calls := by
  cases call <;> simp_all [SrsCall.plain]

/-- A new pusher holds no handle. -/
theorem new_invariant : Invariant CRtmpPush.new where
  numbered := rfl
  owned := rfl
  permitted := Logs.each_nil Permitted
  holding := by simp [CRtmpPush.new]

/-- No handle is created twice. -/
theorem created_nodup (push : CRtmpPush) (owns : Owns push) : (created push.calls).Nodup := by
  rw [owns.numbered]
  exact List.nodup_range

/-- The live handle is the one held. -/
theorem live_iff_held (push : CRtmpPush) (owns : Owns push) (handle : Nat) :
    Live push.calls handle ↔ push.rtmp = some handle := by
  have distinct := created_nodup push owns
  rw [← owns.owned, List.nodup_append] at distinct
  obtain ⟨_, _, apart⟩ := distinct
  rw [Live, ← owns.owned, List.mem_append, Option.mem_toList]
  constructor
  · rintro ⟨gone | held, kept⟩
    · exact absurd gone kept
    · exact held
  · intro held
    refine ⟨Or.inr held, fun gone => ?_⟩
    exact apart handle gone handle (Option.mem_toList.mpr held) rfl

/-- A call with the handle held that neither creates nor destroys. -/
theorem call_owns (push : CRtmpPush) (call : SrsCall) (owns : Owns push) (held : push.rtmp ≠ none)
    (mine : call.handle = push.rtmp) (plain : call.plain = true) : Owns (push.call call) := by
  obtain ⟨handle, holds⟩ := Option.ne_none_iff_exists'.mp held
  have live : Live push.calls handle := (live_iff_held push owns handle).mpr holds
  refine ⟨?_, ?_, Logs.each_snoc Permitted _ _ owns.permitted ?_⟩
  · simpa only [CRtmpPush.call, created_plain _ call plain] using owns.numbered
  · simpa only [CRtmpPush.call, created_plain _ call plain, destroyed_plain _ call plain] using
      owns.owned
  · cases call with
    | create rtmp => cases plain
    | _ => exact ⟨handle, mine.trans holds, live⟩

/-- Creating a handle while none is held. -/
theorem create_owns (push : CRtmpPush) (succeeds : Bool) (owns : Owns push)
    (vacant : push.rtmp = none) : Owns (push.create succeeds) := by
  have gone : destroyed push.calls = created push.calls := by
    simpa [vacant] using owns.owned
  have numbered := owns.numbered
  refine ⟨?_, ?_, Logs.each_snoc Permitted _ _ owns.permitted ?_⟩
  · cases succeeds with
    | false => simpa [CRtmpPush.create, CRtmpPush.call] using numbered
    | true =>
      simp only [CRtmpPush.create, CRtmpPush.call, created_snoc, ↓reduceIte, Option.toList_some,
        List.length_append, List.length_singleton, List.range_succ]
      rw [← numbered]
  · cases succeeds <;> simp [CRtmpPush.create, CRtmpPush.call, gone]
  · intro handle live
    rw [live_iff_held push owns handle, vacant] at live
    cases live

/-- `cleanup` destroys the handle held, if any, and holds none. -/
theorem cleanup_owns (push : CRtmpPush) (owns : Owns push) :
    Owns push.cleanup ∧ push.cleanup.rtmp = none := by
  unfold CRtmpPush.cleanup
  split
  · rename_i held
    obtain ⟨handle, holds⟩ := Option.ne_none_iff_exists'.mp held
    have owned := owns.owned
    refine ⟨⟨?_, ?_, Logs.each_snoc Permitted _ _ owns.permitted ?_⟩, rfl⟩
    · simpa [CRtmpPush.call] using owns.numbered
    · simpa [CRtmpPush.call, holds] using owned
    · exact ⟨handle, holds, (live_iff_held push owns handle).mpr holds⟩
  · rename_i vacant
    exact ⟨owns, by simpa using vacant⟩

/-- A connection attempt without a handle: whatever fails, the handle created is
the handle held, and an attempt that succeeds holds one. -/
theorem open_url_owns (push : CRtmpPush) (outcomes : Outcomes) (owns : Owns push)
    (vacant : push.rtmp = none) :
    Owns (push.openUrl outcomes).1 ∧
      ((push.openUrl outcomes).2 = 0 → (push.openUrl outcomes).1.rtmp ≠ none) := by
  have opened := create_owns push outcomes.create owns vacant
  unfold CRtmpPush.openUrl
  dsimp only
  split
  · exact ⟨opened, fun impossible => by cases impossible⟩
  · rename_i held
    have timed := call_owns _ (.setTimeout _ timeout timeout) opened held rfl rfl
    have greeted := call_owns _ (.handshake _) timed held rfl rfl
    split
    · exact ⟨greeted, fun _ => held⟩
    · have joined := call_owns _ (.connectApp _) greeted held rfl rfl
      split
      · exact ⟨joined, fun _ => held⟩
      · exact ⟨call_owns _ (.publishStream _) joined held rfl rfl, fun _ => held⟩

/-- The test of `run_status` keeps the invariant. -/
theorem check_invariant (push : CRtmpPush) (invariant : Invariant push) :
    Invariant push.checkRunstatus := by
  unfold CRtmpPush.checkRunstatus
  split
  · obtain ⟨owns, vacant⟩ := cleanup_owns push invariant.toOwns
    exact ⟨⟨owns.numbered, owns.owned, owns.permitted⟩, by simp [CRtmpPush.deinit, vacant]⟩
  · exact invariant

/-- After a cleanup the pusher may go to any state without a connection. -/
theorem cleaned_invariant (push : CRtmpPush) (owns : Owns push) (status : Enum)
    (unconnected : status ≠ .connected ∧ status ≠ .connErr) :
    Invariant { push.deinit with status := status } := by
  obtain ⟨cleaned, vacant⟩ := cleanup_owns push owns
  refine ⟨⟨cleaned.numbered, cleaned.owned, cleaned.permitted⟩, ?_⟩
  simp [CRtmpPush.deinit, vacant, unconnected]

/-- An iteration of the thread keeps its handles owned, whatever its calls return. -/
theorem iteration_invariant (push : CRtmpPush) (outcomes : Outcomes) (invariant : Invariant push) :
    Invariant (push.runIteration outcomes) := by
  have holding := invariant.holding
  cases stands : push.status with
  | stopPush =>
    simp only [CRtmpPush.runIteration, stands]
    split
    · refine ⟨⟨invariant.numbered, invariant.owned, invariant.permitted⟩, ?_⟩
      simpa [stands] using holding
    · exact invariant
  | connInit =>
    have vacant : push.rtmp = none := by simpa [stands] using holding
    obtain ⟨owns, connects⟩ : Owns (push.init outcomes).1 ∧
        ((push.init outcomes).2 = 0 → (push.init outcomes).1.rtmp ≠ none) :=
      open_url_owns push outcomes invariant.toOwns vacant
    simp only [CRtmpPush.runIteration, stands]
    by_cases succeeds : (push.init outcomes).2 = 0
    · rw [if_pos succeeds]
      refine check_invariant _ ⟨⟨owns.numbered, owns.owned, owns.permitted⟩, ?_⟩
      simpa using connects succeeds
    · rw [if_neg succeeds]
      have status : (push.init outcomes).1.deinit.status = .connInit := by
        rw [CRtmpPush.deinit, cleanup_status, CRtmpPush.init, open_url_status, stands]
      have cleaned := cleaned_invariant _ owns .connInit (by decide)
      refine check_invariant _ ⟨⟨cleaned.numbered, cleaned.owned, cleaned.permitted⟩, ?_⟩
      simpa [status] using cleaned.holding
  | connected =>
    simp only [CRtmpPush.runIteration, stands]
    exact check_invariant push invariant
  | connErr =>
    simp only [CRtmpPush.runIteration, stands]
    exact check_invariant _ (cleaned_invariant push invariant.toOwns .connInit (by decide))
  | runStatusStart | runStatusExit | runStatusEnd =>
    simp only [CRtmpPush.runIteration, stands]
    exact invariant

/-- A write with the handle held. -/
theorem write_invariant (push : CRtmpPush) (call : SrsCall) (wret : Int) (invariant : Invariant push)
    (mine : call.handle = push.rtmp) (plain : call.plain = true) :
    Invariant (push.writeRawData call wret) := by
  unfold CRtmpPush.writeRawData
  split
  · rename_i connected
    have held : push.rtmp ≠ none := invariant.holding.mpr (Or.inl connected)
    have owns := call_owns push call invariant.toOwns held mine plain
    dsimp only
    split
    · exact ⟨⟨owns.numbered, owns.owned, owns.permitted⟩, by simpa [CRtmpPush.call] using held⟩
    · exact ⟨owns, by simpa [CRtmpPush.call, connected] using held⟩
  · exact invariant

/-- So does every call and every iteration. -/
theorem step_invariant (push : CRtmpPush) (action : Action) (invariant : Invariant push) :
    Invariant (step push action) := by
  cases action with
  | startPush => exact ⟨⟨invariant.numbered, invariant.owned, invariant.permitted⟩, invariant.holding⟩
  | stopPush =>
    simp only [step, CRtmpPush.stopPush]
    split
    · exact invariant
    · exact ⟨⟨invariant.numbered, invariant.owned, invariant.permitted⟩, invariant.holding⟩
  | iteration outcomes => exact iteration_invariant push outcomes invariant
  | writeH264RawData frame wret => exact write_invariant push _ wret invariant rfl rfl
  | writeAACRawData frame wret => exact write_invariant push _ wret invariant rfl rfl

/-- After every run: each handle created was destroyed once and is not held, or
is held and was not destroyed; a handle is held exactly in the states connected
and connection error; a handle was created only while none was live; and every
other call on the library, each media write among them, used the live handle. -/
theorem handles_owned (actions : List Action) :
    (∀ handle ∈ created (after actions).calls,
      ((destroyed (after actions).calls).count handle = 1 ∧ (after actions).rtmp ≠ some handle) ∨
        ((destroyed (after actions).calls).count handle = 0 ∧
          (after actions).rtmp = some handle)) ∧
    ((after actions).rtmp ≠ none ↔
      (after actions).status = .connected ∨ (after actions).status = .connErr) ∧
    ∀ before call rest, (after actions).calls = before ++ call :: rest → Permitted before call := by
  have invariant : Invariant (after actions) :=
    List.foldlRecOn actions step new_invariant fun push kept action _ => step_invariant push action kept
  refine ⟨fun handle member => ?_, invariant.holding, invariant.permitted⟩
  have once : (created (after actions).calls).count handle = 1 :=
    (created_nodup _ invariant.toOwns).count.trans (if_pos member)
  rw [← invariant.owned, List.count_append] at once
  by_cases held : (after actions).rtmp = some handle
  · right
    simp only [held, Option.toList_some, List.count_singleton_self] at once
    exact ⟨by omega, held⟩
  · left
    have elsewhere : (after actions).rtmp.toList.count handle = 0 := by
      rw [List.count_eq_zero, Option.mem_toList]
      exact held
    exact ⟨by omega, held⟩

end IotCamera.Rtmp
