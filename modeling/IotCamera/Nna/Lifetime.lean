import IotCamera.Base.Runs
import IotCamera.Nna.Regions

/-!
# The lifetime of the shared detection result

`sample_nna.c`: `main` starts `VENC_Proc` and then `NNA_Proc`. `NNA_Proc` allocates
the result `hb_xy`, publishes into it for its frames and frees it. `VENC_Proc` reads
it in each of its frames for which it gets an image. Both use it under
`g_stResult_lock`, but the allocation and the release are made without the lock,
and nothing orders them with the other thread's frames.

Each statement that touches the result, the lock or the frame counter is one atomic
step, and the three threads take steps in any order. A publication under the lock is
one step, as in the module before. Whether a frame arrives, what is detected in it
and whether a region can be created are arguments of the step. Using the result
through a pointer that is null, or whose memory has been freed, is a fault and ends
the run.
-/

namespace IotCamera.Nna.Lifetime

/-- The two processing threads, in the order they are started. -/
inductive Proc where
  | venc
  | nna
  deriving DecidableEq, Repr

/-- The pointer `hb_xy` and what it leads to. -/
inductive Pointer where
  | null
  | valid (result : OsdXybox)
  | freed

/-- A use of the result by a thread while it does not exist. -/
inductive Fault where
  | null (proc : Proc)
  | freed (proc : Proc)
  deriving DecidableEq, Repr

/-- What `main` does next. -/
inductive Main where
  | createVenc
  | createNna
  | join
  deriving DecidableEq, Repr

/-- The statement that `NNA_Proc` comes to next. -/
inductive NnaProc where
  | unstarted
  | malloc
  | memset
  | test
  | getFrame
  | lock (detected : List DrawBox)
  | publish (detected : List DrawBox)
  | unlock
  | next
  | free
  | exited
  deriving DecidableEq, Repr

/-- The statement that `VENC_Proc` comes to next. Between `lock` and `unlock` it
tests the number of boxes, takes it, creates and reads for each box `k` in turn, and
tests the number again. -/
inductive VencProc where
  | unstarted
  | test
  | getFrame
  | lock
  | testPositive
  | takeNumber
  | create (k : Nat)
  | readBox (k : Nat)
  | testZero
  | unlock
  | next
  | exited
  deriving DecidableEq, Repr

/-- The number of frames, and what `malloc` finds in the memory it gives. -/
structure Setup where
  iFrameNum : Nat
  fresh : OsdXybox

structure System where
  hbXy : Pointer
  resultLock : Option Proc
  main : Main
  nna : NnaProc
  nnaFrameIdx : Nat
  venc : VencProc
  vencFrameIdx : Nat
  resBoxnum : Int

def System.init : System := ⟨.null, none, .createVenc, .unstarted, 0, .unstarted, 0, 0⟩

/-- A step of one of the threads. `image` is what `NNA_Proc` detects in the frame it
gets, if it gets one; `success` is the outcome of the call that `VENC_Proc` makes. -/
inductive Action where
  | main
  | nna (image : Option (List DrawBox))
  | venc (success : Bool)
  deriving DecidableEq, Repr

/-- Use the result. -/
def use (system : System) (proc : Proc) (next : OsdXybox → System) :
    Except (Fault × System) System :=
  match system.hbXy with
  | .null => .error (.null proc, system)
  | .valid result => .ok (next result)
  | .freed => .error (.freed proc, system)

/-- One statement of `main`: start the threads in order, then wait for them. -/
def mainStep (system : System) : System :=
  match system.main with
  | .createVenc => { system with venc := .test, main := .createNna }
  | .createNna => { system with nna := .malloc, main := .join }
  | .join => system

/-- An empty result. -/
def cleared : OsdXybox := ⟨0, fun _ => ⟨0, 0, 0, 0⟩⟩

/-- One statement of `NNA_Proc`. -/
def nnaStep (setup : Setup) (system : System) (image : Option (List DrawBox)) :
    Except (Fault × System) System :=
  match system.nna with
  | .unstarted | .exited => .ok system
  | .malloc => .ok { system with hbXy := .valid setup.fresh, nna := .memset }
  | .memset => use system .nna fun _ => { system with hbXy := .valid cleared, nna := .test }
  | .test =>
    if system.nnaFrameIdx < setup.iFrameNum then .ok { system with nna := .getFrame }
    else .ok { system with nna := .free }
  | .getFrame =>
    match image with
    | some detected => .ok { system with nna := .lock detected }
    | none => .ok { system with nna := .next }
  | .lock detected =>
    if system.resultLock = none then
      .ok { system with resultLock := some .nna, nna := .publish detected }
    else .ok system
  | .publish detected => use system .nna fun result =>
    { system with hbXy := .valid (publish result detected), nna := .unlock }
  | .unlock => .ok { system with resultLock := none, nna := .next }
  | .next => .ok { system with nnaFrameIdx := system.nnaFrameIdx + 1, nna := .test }
  | .free => .ok { system with hbXy := .freed, nna := .exited }

/-- One statement of `VENC_Proc`. -/
def vencStep (setup : Setup) (system : System) (success : Bool) : Except (Fault × System) System :=
  match system.venc with
  | .unstarted | .exited => .ok system
  | .test =>
    if system.vencFrameIdx < setup.iFrameNum then .ok { system with venc := .getFrame }
    else .ok { system with venc := .exited }
  | .getFrame => .ok { system with venc := if success then .lock else .next }
  | .lock =>
    if system.resultLock = none then
      .ok { system with resultLock := some .venc, venc := .testPositive }
    else .ok system
  | .testPositive => use system .venc fun result =>
    { system with venc := if 0 < result.osdBoxNum then .takeNumber else .testZero }
  | .takeNumber => use system .venc fun result =>
    { system with resBoxnum := result.osdBoxNum, venc := .create 0 }
  | .create k =>
    if k < system.resBoxnum then
      .ok { system with venc := if success then .readBox k else .testZero }
    else .ok { system with venc := .testZero }
  | .readBox k => use system .venc fun _ => { system with venc := .create (k + 1) }
  | .testZero => use system .venc fun result =>
    { system with
      resBoxnum := if result.osdBoxNum = 0 then 0 else system.resBoxnum
      venc := .unlock }
  | .unlock => .ok { system with resultLock := none, venc := .next }
  | .next => .ok { system with vencFrameIdx := system.vencFrameIdx + 1, venc := .test }

def step (setup : Setup) (system : System) : Action → Except (Fault × System) System
  | .main => .ok (mainStep system)
  | .nna image => nnaStep setup system image
  | .venc success => vencStep setup system success

/-- The run does not end with `VENC_Proc` using a result that does not exist. -/
def UsedWhileItExists (setup : Setup) (actions : List Action) : Prop :=
  Runs.reason (Runs.run (step setup) System.init actions) ≠ some (.null .venc) ∧
    Runs.reason (Runs.run (step setup) System.init actions) ≠ some (.freed .venc)

/-- `NNA_Proc` is behind its allocation and has not freed the result. -/
def NnaProc.owns : NnaProc → Bool
  | .unstarted | .malloc | .exited => false
  | _ => true

/-- `VENC_Proc` is in the part of a frame in which it reads the result. -/
def VencProc.reads : VencProc → Bool
  | .testPositive | .takeNumber | .create _ | .readBox _ | .testZero => true
  | _ => false

/-- `VENC_Proc` takes the lock only between the allocation and the release, and the
release is not made while it reads. -/
def Apart (system : System) : Action → Prop
  | .main => True
  | .nna _ => system.nna = .free → system.venc.reads = false
  | .venc _ => system.venc = .lock → system.nna.owns = true

instance decidableApart (system : System) : (action : Action) → Decidable (Apart system action)
  | .main => isTrue trivial
  | .nna _ => inferInstanceAs (Decidable (_ → _))
  | .venc _ => inferInstanceAs (Decidable (_ → _))

/-- The result exists while `NNA_Proc` owns it, and it does while `VENC_Proc` reads. -/
structure Invariant (system : System) : Prop where
  owned : system.nna.owns = true → ∃ result, system.hbXy = .valid result
  read : system.venc.reads = true → system.nna.owns = true
  unstarted : system.main ≠ .join → system.nna = .unstarted

/-- At first nobody owns the result. -/
theorem init_invariant : Invariant System.init := ⟨nofun, nofun, fun _ => rfl⟩

/-- A step of `main` keeps the result with its owner. -/
theorem main_invariant (system : System) (invariant : Invariant system) :
    Invariant (mainStep system) := by
  cases place : system.main <;> simp only [mainStep, place]
  case createVenc =>
    have first := invariant.unstarted (by simp [place])
    exact ⟨invariant.owned, nofun, fun _ => first⟩
  case createNna =>
    have first := invariant.unstarted (by simp [place])
    refine ⟨nofun, fun reads => ?_, fun other => absurd rfl other⟩
    have owns := invariant.read reads
    rw [first] at owns
    cases owns
  case join => exact invariant

/-- Whoever uses the result while it is owned gets it. -/
theorem use_owned (system : System) (proc : Proc) (next : OsdXybox → System)
    (invariant : Invariant system) (owns : system.nna.owns = true) :
    ∃ result, use system proc next = .ok (next result) := by
  obtain ⟨result, valid⟩ := invariant.owned owns
  exact ⟨result, by rw [use, valid]⟩

section Threads
variable {setup : Setup} {system : System} (invariant : Invariant system)

include invariant

/-- `NNA_Proc` moves on to a place where the result exists. -/
theorem nna_moved (next : System) (started : system.nna ≠ .unstarted)
    (owns : next.nna.owns = true) (valid : ∃ result, next.hbXy = .valid result)
    (main : next.main = system.main) : Invariant next where
  owned _ := valid
  read _ := owns
  unstarted other := absurd (invariant.unstarted (main ▸ other)) started

/-- A step of `NNA_Proc` that does not come at a bad moment returns and keeps it. -/
theorem nna_invariant (image : Option (List DrawBox)) (apart : Apart system (.nna image)) :
    ∃ next, nnaStep setup system image = .ok next ∧ Invariant next := by
  have present := invariant.owned
  cases place : system.nna <;> rw [place] at present <;> simp only [nnaStep, place]
  case unstarted => exact ⟨_, rfl, invariant⟩
  case exited => exact ⟨_, rfl, invariant⟩
  case malloc => exact ⟨_, rfl, nna_moved invariant _ (by simp [place]) rfl ⟨_, rfl⟩ rfl⟩
  case memset =>
    obtain ⟨result, used⟩ := use_owned system .nna
      (fun _ => { system with hbXy := .valid cleared, nna := .test }) invariant (by rw [place]; rfl)
    exact ⟨_, used, nna_moved invariant _ (by simp [place]) rfl ⟨_, rfl⟩ rfl⟩
  case test =>
    split
    · exact ⟨_, rfl, nna_moved invariant _ (by simp [place]) rfl (present rfl) rfl⟩
    · exact ⟨_, rfl, nna_moved invariant _ (by simp [place]) rfl (present rfl) rfl⟩
  case getFrame =>
    split
    · exact ⟨_, rfl, nna_moved invariant _ (by simp [place]) rfl (present rfl) rfl⟩
    · exact ⟨_, rfl, nna_moved invariant _ (by simp [place]) rfl (present rfl) rfl⟩
  case lock detected =>
    split
    · exact ⟨_, rfl, nna_moved invariant _ (by simp [place]) rfl (present rfl) rfl⟩
    · exact ⟨_, rfl, invariant⟩
  case publish detected =>
    obtain ⟨result, used⟩ := use_owned system .nna
      (fun result => { system with hbXy := .valid (publish result detected), nna := .unlock })
      invariant (by rw [place]; rfl)
    exact ⟨_, used, nna_moved invariant _ (by simp [place]) rfl ⟨_, rfl⟩ rfl⟩
  case unlock => exact ⟨_, rfl, nna_moved invariant _ (by simp [place]) rfl (present rfl) rfl⟩
  case next => exact ⟨_, rfl, nna_moved invariant _ (by simp [place]) rfl (present rfl) rfl⟩
  case free =>
    -- nobody reads when the result goes
    refine ⟨_, rfl, nofun, fun reads => ?_, fun other => ?_⟩
    · rw [apart place] at reads
      cases reads
    · exact absurd (invariant.unstarted other) (by simp [place])

/-- `VENC_Proc` moves on; where it reads, the result must exist. -/
theorem venc_moved (next : System) (owns : next.venc.reads = true → system.nna.owns = true)
    (hbXy : next.hbXy = system.hbXy) (nna : next.nna = system.nna) (main : next.main = system.main) :
    Invariant next where
  owned there := hbXy ▸ invariant.owned (nna ▸ there)
  read reads := nna ▸ owns reads
  unstarted other := nna ▸ invariant.unstarted (main ▸ other)

/-- So does one of `VENC_Proc`. -/
theorem venc_invariant (success : Bool) (apart : Apart system (.venc success)) :
    ∃ next, vencStep setup system success = .ok next ∧ Invariant next := by
  have owns := invariant.read
  cases place : system.venc <;> rw [place] at owns <;> simp only [vencStep, place]
  case unstarted => exact ⟨_, rfl, invariant⟩
  case exited => exact ⟨_, rfl, invariant⟩
  case test =>
    split
    · exact ⟨_, rfl, venc_moved invariant _ nofun rfl rfl rfl⟩
    · exact ⟨_, rfl, venc_moved invariant _ nofun rfl rfl rfl⟩
  case getFrame => exact ⟨_, rfl, venc_moved invariant _ (by cases success <;> nofun) rfl rfl rfl⟩
  case lock =>
    split
    · exact ⟨_, rfl, venc_moved invariant _ (fun _ => apart place) rfl rfl rfl⟩
    · exact ⟨_, rfl, invariant⟩
  case testPositive =>
    obtain ⟨result, used⟩ := use_owned system .venc _ invariant (owns rfl)
    exact ⟨_, used, venc_moved invariant _ (fun _ => owns rfl) rfl rfl rfl⟩
  case takeNumber =>
    obtain ⟨result, used⟩ := use_owned system .venc _ invariant (owns rfl)
    exact ⟨_, used, venc_moved invariant _ (fun _ => owns rfl) rfl rfl rfl⟩
  case create k =>
    split
    · exact ⟨_, rfl, venc_moved invariant _ (fun _ => owns rfl) rfl rfl rfl⟩
    · exact ⟨_, rfl, venc_moved invariant _ (fun _ => owns rfl) rfl rfl rfl⟩
  case readBox k =>
    obtain ⟨result, used⟩ := use_owned system .venc _ invariant (owns rfl)
    exact ⟨_, used, venc_moved invariant _ (fun _ => owns rfl) rfl rfl rfl⟩
  case testZero =>
    obtain ⟨result, used⟩ := use_owned system .venc _ invariant (owns rfl)
    exact ⟨_, used, venc_moved invariant _ nofun rfl rfl rfl⟩
  case unlock => exact ⟨_, rfl, venc_moved invariant _ nofun rfl rfl rfl⟩
  case next => exact ⟨_, rfl, venc_moved invariant _ nofun rfl rfl rfl⟩

end Threads

/-- So does every step that does not come at a bad moment. -/
theorem step_invariant (setup : Setup) (system : System) (action : Action)
    (invariant : Invariant system) (apart : Apart system action) :
    ∃ next, step setup system action = .ok next ∧ Invariant next := by
  cases action with
  | main => exact ⟨_, rfl, main_invariant system invariant⟩
  | nna image => exact nna_invariant invariant image apart
  | venc success => exact venc_invariant invariant success apart

/-- The result is used only while it exists, in every run in which `VENC_Proc` takes
the lock only between the allocation and the release, and the release is not made
while it reads. -/
theorem used_while_it_exists (setup : Setup) (actions : List Action)
    (apart : Runs.Meets (step setup) Apart System.init actions) :
    UsedWhileItExists setup actions := by
  obtain ⟨system, run, -⟩ := Runs.run_returns Apart Invariant (step_invariant setup) System.init
    actions init_invariant apart
  rw [UsedWhileItExists, run]
  exact ⟨nofun, nofun⟩

/-- The frame number of the sample. -/
def testFrameNum : Nat := 800

/-- Statements of `VENC_Proc`, whose calls succeed. -/
def vencSteps (count : Nat) : List Action := List.replicate count (.venc true)

/-- Statements of `NNA_Proc`, which gets no frame. -/
def nnaSteps (count : Nat) : List Action := List.replicate count (.nna none)

/-- One frame of `VENC_Proc` between the allocation and the release. -/
theorem used_in_between :
    UsedWhileItExists ⟨1, cleared⟩ (.main :: .main :: (nnaSteps 2 ++ vencSteps 8 ++ nnaSteps 5)) :=
  used_while_it_exists ⟨1, cleared⟩ _ (by decide)

/-- `VENC_Proc` has its first image before `NNA_Proc` is started, or its last one
after `NNA_Proc` is done. -/
theorem used_outside_its_lifetime :
    ¬ UsedWhileItExists ⟨testFrameNum, cleared⟩ (.main :: vencSteps 4) ∧
      ¬ UsedWhileItExists ⟨1, cleared⟩ (.main :: .main :: (nnaSteps 7 ++ vencSteps 4)) := by
  constructor
  · intro used
    exact used.1 rfl
  · intro used
    exact used.2 rfl

end IotCamera.Nna.Lifetime
