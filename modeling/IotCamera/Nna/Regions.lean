import Mathlib.Data.List.Basic

/-!
# Regions drawn around detections

Two threads of `sample_nna.c` share one detection result. `NNA_Proc` publishes
the boxes of each image it has run; `VENC_Proc` draws one region for each
published box on each frame it gets, after destroying the regions of the frame
before. Both work under one mutex, so a run is a sequence of publications and of
frames with and without an image.

The regions themselves belong to the platform's driver, which is a parameter: a
state, the calls on it with their success, and which regions are present. What
the program relies on is that creating succeeds exactly for an absent region and
destroying exactly for a present one, and that attaching leaves presence alone.

The loop keeps two numbers, the regions it has and the regions it had before
them. A frame with boxes destroys by the first number, a frame without any by
the second, so the regions match the boxes exactly when those two numbers agree
whenever the boxes disappear.
-/

namespace IotCamera.Nna

/-- A detection box in image coordinates. -/
structure DrawBox where
  x1 : Int
  y1 : Int
  x2 : Int
  y2 : Int
  deriving DecidableEq, Repr

/-- The shared result: a number of boxes and an array of boxes. -/
structure OsdXybox where
  osdBoxNum : Int
  box : Nat → DrawBox

def viCaptureWidth : Int := 1920
def viCaptureHight : Int := 1080
def nnaCalcWidth : Int := 1920
def nnaCalcHight : Int := 1080

/-- The attributes a region is attached with. -/
structure OrlChnAttr where
  x : Int
  y : Int
  width : Int
  height : Int
  mColor : Nat
  mThick : Nat
  mLayer : Nat
  deriving DecidableEq, Repr

/-- Round up to an even number. -/
def evenAlign (value : Int) : Int := if value.tmod 2 = 0 then value else value + 1

/-- The rectangle of a box on the captured picture. The right and bottom edges
are scaled before the size is taken. -/
def orlChnAttr (k : Nat) (box : DrawBox) : OrlChnAttr :=
  let iBodyLeft := (box.x1 * viCaptureWidth).tdiv nnaCalcWidth
  let iBodyTop := (box.y1 * viCaptureHight).tdiv nnaCalcHight
  let iBodyRight := (box.x2 * viCaptureWidth).tdiv nnaCalcWidth
  let iBodyBottom := (box.y2 * viCaptureHight).tdiv nnaCalcHight
  { x := evenAlign iBodyLeft
    y := evenAlign iBodyTop
    width := evenAlign (iBodyRight - iBodyLeft)
    height := evenAlign (iBodyBottom - iBodyTop)
    mColor := 0xFF0000 >>> (k % 3 * 8)
    mThick := 1
    mLayer := k }

/-- The region calls of the platform, each with its success. -/
structure RegionDriver (σ : Type) where
  present : σ → Nat → Bool
  create : σ → Nat → Bool × σ
  destroy : σ → Nat → Bool × σ
  attachToChn : σ → Nat → OrlChnAttr → Bool × σ

/-- What the program relies on. -/
structure RegionDriver.Lawful {σ : Type} (driver : RegionDriver σ) : Prop where
  create_succeeds : ∀ state k, (driver.create state k).1 = !driver.present state k
  create_present : ∀ state k other,
    driver.present (driver.create state k).2 other = (driver.present state other || other == k)
  destroy_succeeds : ∀ state k, (driver.destroy state k).1 = driver.present state k
  destroy_present : ∀ state k other,
    driver.present (driver.destroy state k).2 other = (driver.present state other && other != k)
  attach_present : ∀ state k attr other,
    driver.present (driver.attachToChn state k attr).2 other = driver.present state other

/-- The loop's numbers and the driver's state. -/
structure Venc (σ : Type) where
  resBoxnum : Int
  lastBoxNum : Int
  regions : σ

section Loop
variable {σ : Type} (driver : RegionDriver σ)

/-- Destroy `count` regions from `k` on; a failure is reported and passed over. -/
def destroyFrom : Nat → Nat → σ → List Bool × σ
  | _, 0, regions => ([], regions)
  | k, count + 1, regions =>
    let (ret, regions) := driver.destroy regions k
    let (rets, regions) := destroyFrom (k + 1) count regions
    (ret :: rets, regions)

/-- Create and attach `count` regions from `k` on; a failed creation ends the loop. -/
def createFrom (box : Nat → DrawBox) : Nat → Nat → σ → List Bool × σ
  | _, 0, regions => ([], regions)
  | k, count + 1, regions =>
    let (ret, regions) := driver.create regions k
    if ret then
      let (_, regions) := driver.attachToChn regions k (orlChnAttr k (box k))
      let (rets, regions) := createFrom box (k + 1) count regions
      (ret :: rets, regions)
    else ([ret], regions)

/-- The drawing part of one frame: the success of each creating and destroying
call, and the state after it. Both tests read the same published number. -/
def drawRegions (venc : Venc σ) (hbXy : OsdXybox) : List Bool × Venc σ :=
  let (drawn, venc) :=
    if 0 < hbXy.osdBoxNum then
      let lastBoxNum := venc.resBoxnum
      let resBoxnum := hbXy.osdBoxNum
      let (destroyed, regions) := destroyFrom driver 0 lastBoxNum.toNat venc.regions
      let (created, regions) := createFrom driver hbXy.box 0 resBoxnum.toNat regions
      (destroyed ++ created, ⟨resBoxnum, lastBoxNum, regions⟩)
    else ([], venc)
  if hbXy.osdBoxNum = 0 then
    let (destroyed, regions) := destroyFrom driver 0 venc.lastBoxNum.toNat venc.regions
    (drawn ++ destroyed, ⟨0, 0, regions⟩)
  else (drawn, venc)

end Loop

/-- Publish the boxes of one image. Without boxes only the number is written. -/
def publish (hbXy : OsdXybox) (detected : List DrawBox) : OsdXybox :=
  if detected.length = 0 then { hbXy with osdBoxNum := 0 }
  else
    { osdBoxNum := detected.length
      box := fun k => detected.getD k (hbXy.box k) }

/-- What the two threads do: publish the boxes of an image, get a frame, or fail
to get one. -/
inductive Event where
  | detected (boxes : List DrawBox)
  | frame
  | noFrame

/-- The shared result and the drawing loop's state. -/
structure Sample (σ : Type) where
  hbXy : OsdXybox
  venc : Venc σ

/-- At the start nothing is published and nothing is drawn. -/
def Sample.start {σ : Type} (regions : σ) : Sample σ :=
  ⟨⟨0, fun _ => ⟨0, 0, 0, 0⟩⟩, ⟨0, 0, regions⟩⟩

/-- Along a run, on every frame: each call on a region succeeds, and afterwards
the regions are those below the published number. -/
def Matching {σ : Type} (driver : RegionDriver σ) : Sample σ → List Event → Prop
  | _, [] => True
  | sample, .detected boxes :: rest =>
    Matching driver { sample with hbXy := publish sample.hbXy boxes } rest
  | sample, .noFrame :: rest => Matching driver sample rest
  | sample, .frame :: rest =>
    let (rets, venc) := drawRegions driver sample.venc sample.hbXy
    (∀ ret ∈ rets, ret = true) ∧
      (∀ k : Nat, driver.present venc.regions k = true ↔ (k : Int) < sample.hbXy.osdBoxNum) ∧
      Matching driver { sample with venc := venc } rest

/-- The published numbers that the frames of a run see. -/
def seen : Nat → List Event → List Nat
  | _, [] => []
  | _, .detected boxes :: rest => seen boxes.length rest
  | number, .noFrame :: rest => seen number rest
  | number, .frame :: rest => number :: seen number rest

/-- Whenever boxes disappear, the two numbers before were equal. The first two
arguments are the numbers before the list. -/
def Settled : Nat → Nat → List Nat → Prop
  | _, _, [] => True
  | older, newer, number :: rest =>
    (number = 0 → newer = 0 ∨ older = newer) ∧ Settled newer number rest

section Laws
variable {σ : Type} (driver : RegionDriver σ) (lawful : driver.Lawful)
include lawful

/-- Destroying a range removes it, and all of it succeeds exactly when all of it
was there. -/
theorem destroy_from_spec (k count : Nat) (regions : σ) :
    (∀ other, driver.present (destroyFrom driver k count regions).2 other = true ↔
      driver.present regions other = true ∧ ¬ (k ≤ other ∧ other < k + count)) ∧
    ((∀ ret ∈ (destroyFrom driver k count regions).1, ret = true) ↔
      ∀ other, k ≤ other → other < k + count → driver.present regions other = true) := by
  induction count generalizing k regions with
  | zero =>
    refine ⟨fun other => ?_, ?_⟩
    · simp only [destroyFrom]
      exact ⟨fun there => ⟨there, by omega⟩, fun both => both.1⟩
    · simp only [destroyFrom, List.not_mem_nil, false_implies, implies_true, true_iff]
      intro other above below
      omega
  | succ count inductionHypothesis =>
    obtain ⟨left, succeeded⟩ := inductionHypothesis (k + 1) (driver.destroy regions k).2
    have removed : ∀ other, driver.present (driver.destroy regions k).2 other = true ↔
        driver.present regions other = true ∧ other ≠ k := by
      intro other
      rw [lawful.destroy_present]
      simp
    refine ⟨fun other => ?_, ?_⟩
    · simp only [destroyFrom]
      rw [left other, removed other]
      constructor
      · rintro ⟨⟨there, different⟩, outside⟩
        exact ⟨there, by omega⟩
      · rintro ⟨there, outside⟩
        exact ⟨⟨there, by omega⟩, by omega⟩
    · simp only [destroyFrom, List.mem_cons, forall_eq_or_imp, lawful.destroy_succeeds]
      rw [succeeded]
      constructor
      · rintro ⟨first, later⟩ other above below
        rcases Nat.lt_or_ge k other with behind | same
        · exact ((removed other).mp (later other behind (by omega))).1
        · rwa [show other = k by omega]
      · intro all
        refine ⟨all k (Nat.le_refl k) (by omega), fun other above below => ?_⟩
        exact (removed other).mpr ⟨all other (by omega) (by omega), by omega⟩

/-- Creating a range that is absent succeeds and adds it. -/
theorem create_from_spec (box : Nat → DrawBox) (k count : Nat) (regions : σ)
    (absent : ∀ other, k ≤ other → other < k + count → driver.present regions other = false) :
    (∀ other, driver.present (createFrom driver box k count regions).2 other = true ↔
      driver.present regions other = true ∨ (k ≤ other ∧ other < k + count)) ∧
    ∀ ret ∈ (createFrom driver box k count regions).1, ret = true := by
  induction count generalizing k regions with
  | zero =>
    refine ⟨fun other => ?_, by simp [createFrom]⟩
    simp only [createFrom]
    exact ⟨Or.inl, fun either => either.resolve_right (by omega)⟩
  | succ count inductionHypothesis =>
    have created : (driver.create regions k).1 = true := by
      rw [lawful.create_succeeds, absent k (Nat.le_refl k) (by omega)]
      rfl
    set attached := (driver.attachToChn (driver.create regions k).2 k (orlChnAttr k (box k))).2
    have added : ∀ other, driver.present attached other = true ↔
        driver.present regions other = true ∨ other = k := by
      intro other
      rw [lawful.attach_present, lawful.create_present]
      simp
    obtain ⟨present, succeeded⟩ := inductionHypothesis (k + 1) attached (by
      intro other above below
      rw [Bool.eq_false_iff, ne_eq, added other, absent other (by omega) (by omega)]
      simp
      omega)
    have unfolded : createFrom driver box k (count + 1) regions =
        (true :: (createFrom driver box (k + 1) count attached).1,
          (createFrom driver box (k + 1) count attached).2) := by
      simp only [createFrom, created, ↓reduceIte]
      rfl
    rw [unfolded]
    refine ⟨fun other => ?_, ?_⟩
    · rw [present other, added other]
      constructor
      · rintro ((there | same) | range)
        · exact Or.inl there
        · exact Or.inr (by omega)
        · exact Or.inr (by omega)
      · rintro (there | range)
        · exact Or.inl (Or.inl there)
        · rcases Nat.lt_or_ge k other with behind | same
          · exact Or.inr (by omega)
          · exact Or.inl (Or.inr (by omega))
    · simpa using succeeded

/-- The loop's state after frames that saw `older` and then `newer` boxes. A frame
without boxes clears both numbers. -/
structure Drawn (venc : Venc σ) (older newer : Nat) : Prop where
  res : venc.resBoxnum = newer
  last : venc.lastBoxNum = if newer = 0 then 0 else (older : Int)
  regions : ∀ k, driver.present venc.regions k = true ↔ k < newer

/-- A frame with boxes always draws exactly them: it destroys the regions of the
frame before and creates its own. -/
theorem frame_with_boxes (venc : Venc σ) (older newer number : Nat)
    (drawn : Drawn driver venc older newer) (hbXy : OsdXybox)
    (published : hbXy.osdBoxNum = number) (some : number ≠ 0) :
    (∀ ret ∈ (drawRegions driver venc hbXy).1, ret = true) ∧
      Drawn driver (drawRegions driver venc hbXy).2 newer number := by
  have positive : (0 : Int) < number := by omega
  have nonzero : (number : Int) ≠ 0 := by omega
  have before : venc.resBoxnum.toNat = newer := by rw [drawn.res, Int.toNat_natCast]
  obtain ⟨cleared, destroyed⟩ := destroy_from_spec driver lawful 0 newer venc.regions
  have empty : ∀ k, driver.present (destroyFrom driver 0 newer venc.regions).2 k = false := by
    intro k
    rw [Bool.eq_false_iff, ne_eq, cleared k, drawn.regions k]
    omega
  obtain ⟨present, created⟩ := create_from_spec driver lawful hbXy.box 0 number
    (destroyFrom driver 0 newer venc.regions).2 fun k _ _ => empty k
  simp only [drawRegions, published, positive, nonzero, ↓reduceIte, before, Int.toNat_natCast]
  refine ⟨?_, rfl, ?_, ?_⟩
  · intro ret member
    rcases List.mem_append.mp member with first | second
    · refine destroyed.mpr (fun other _ below => ?_) ret first
      exact (drawn.regions other).mpr (by omega)
    · exact created ret second
  · rw [if_neg some]
    exact drawn.res
  · intro k
    rw [present k, empty k]
    simp

/-- A frame without boxes destroys by the older number, which is right exactly
when it is the newer one, or nothing was drawn. -/
theorem frame_without_boxes (venc : Venc σ) (older newer : Nat)
    (drawn : Drawn driver venc older newer) (hbXy : OsdXybox) (published : hbXy.osdBoxNum = 0) :
    ((∀ ret ∈ (drawRegions driver venc hbXy).1, ret = true) ∧
        ∀ k : Nat, driver.present (drawRegions driver venc hbXy).2.regions k = true ↔
          (k : Int) < 0) ↔
      (newer = 0 ∨ older = newer) := by
  have last : venc.lastBoxNum.toNat = if newer = 0 then 0 else older := by
    rw [drawn.last]
    split <;> simp
  obtain ⟨cleared, destroyed⟩ :=
    destroy_from_spec driver lawful 0 (if newer = 0 then 0 else older) venc.regions
  simp only [drawRegions, published, Int.lt_irrefl, ↓reduceIte, List.nil_append, last]
  rw [destroyed]
  simp only [cleared, drawn.regions]
  by_cases vacant : newer = 0
  · simp only [vacant, ↓reduceIte, true_or, iff_true]
    exact ⟨by omega, by omega⟩
  · simp only [vacant, ↓reduceIte, false_or]
    constructor
    · rintro ⟨there, gone⟩
      -- too few are destroyed or one too many: the region `older` or `older - 1` tells which
      have above := gone older
      have below := there (older - 1)
      omega
    · rintro rfl
      exact ⟨by omega, by omega⟩

/-- A run matches exactly when the numbers its frames see are settled. -/
theorem matching_iff_settled (events : List Event) (sample : Sample σ) (older newer number : Nat)
    (drawn : Drawn driver sample.venc older newer)
    (published : sample.hbXy.osdBoxNum = number) :
    Matching driver sample events ↔ Settled older newer (seen number events) := by
  induction events generalizing sample older newer number with
  | nil => exact Iff.rfl
  | cons event rest inductionHypothesis =>
    cases event with
    | detected boxes =>
      refine inductionHypothesis { sample with hbXy := publish sample.hbXy boxes } older newer
        boxes.length drawn ?_
      unfold publish
      split
      · rename_i none
        simp [none]
      · rfl
    | noFrame => exact inductionHypothesis sample older newer number drawn published
    | frame =>
      simp only [Matching, seen, Settled]
      by_cases none : number = 0
      · subst none
        have exactly := frame_without_boxes driver lawful sample.venc older newer drawn sample.hbXy
          published
        have numbers : (drawRegions driver sample.venc sample.hbXy).2.resBoxnum = 0 ∧
            (drawRegions driver sample.venc sample.hbXy).2.lastBoxNum = 0 := by
          simp [drawRegions, published]
        have later : (∀ k : Nat, driver.present (drawRegions driver sample.venc
            sample.hbXy).2.regions k = true ↔ (k : Int) < 0) →
            (Matching driver { sample with venc := (drawRegions driver sample.venc sample.hbXy).2 }
              rest ↔ Settled newer 0 (seen 0 rest)) := fun gone =>
          inductionHypothesis _ newer 0 0 ⟨numbers.1, numbers.2, fun k => by
            rw [gone k]
            omega⟩ published
        rw [published, Int.natCast_zero]
        constructor
        · rintro ⟨succeeded, gone, following⟩
          exact ⟨fun _ => exactly.mp ⟨succeeded, gone⟩, (later gone).mp following⟩
        · rintro ⟨agree, settled⟩
          obtain ⟨succeeded, gone⟩ := exactly.mpr (agree rfl)
          exact ⟨succeeded, gone, (later gone).mpr settled⟩
      · obtain ⟨succeeded, next⟩ := frame_with_boxes driver lawful sample.venc older newer number
          drawn sample.hbXy published none
        have later := inductionHypothesis
          { sample with venc := (drawRegions driver sample.venc sample.hbXy).2 } newer number number
          next published
        rw [later]
        constructor
        · rintro ⟨_, _, settled⟩
          exact ⟨fun zero => absurd zero none, settled⟩
        · rintro ⟨_, settled⟩
          refine ⟨succeeded, fun k => ?_, settled⟩
          rw [next.regions k, published]
          omega

/-- From the start, the regions follow the detections on every frame, with every
call on them succeeding, exactly when boxes disappear only after two frames that
saw the same number of them. -/
theorem regions_match_iff (regions : σ) (absent : ∀ k, driver.present regions k = false)
    (events : List Event) :
    Matching driver (Sample.start regions) events ↔ Settled 0 0 (seen 0 events) :=
  matching_iff_settled driver lawful events (Sample.start regions) 0 0 0
    ⟨rfl, rfl, by simp [Sample.start, absent]⟩ rfl

end Laws

/-- A driver that keeps the present regions in a list. -/
def listDriver : RegionDriver (List Nat) where
  present := fun state k => decide (k ∈ state)
  create := fun state k => if k ∈ state then (false, state) else (true, k :: state)
  destroy := fun state k => (decide (k ∈ state), state.filter (· ≠ k))
  attachToChn := fun state k _ => (decide (k ∈ state), state)

/-- The driver that keeps a list does what the laws of a driver say. -/
theorem list_driver_lawful : listDriver.Lawful where
  create_succeeds := by
    intro state k
    by_cases present : k ∈ state <;> simp [listDriver, present]
  create_present := by
    intro state k other
    by_cases present : k ∈ state
    · by_cases same : other = k <;> simp [listDriver, present, same]
    · by_cases same : other = k <;> simp [listDriver, present, same]
  destroy_succeeds := fun _ _ => rfl
  destroy_present := by
    intro state k other
    by_cases same : other = k <;> simp [listDriver, same]
  attach_present := fun _ _ _ _ => rfl

/-- Three boxes on two frames, then none. -/
theorem regions_match_twice :
    let boxes := List.replicate 3 (⟨10, 10, 50, 90⟩ : DrawBox)
    Matching listDriver (Sample.start []) [.detected boxes, .frame, .frame, .detected [], .frame] :=
  (regions_match_iff listDriver list_driver_lawful [] (fun _ => rfl) _).mpr (by
    simp [seen, Settled])

/-- Three boxes on one frame, then none: the three regions stay. -/
theorem stale_regions :
    let boxes := List.replicate 3 (⟨10, 10, 50, 90⟩ : DrawBox)
    ¬ Matching listDriver (Sample.start []) [.detected boxes, .frame, .detected [], .frame] := by
  rintro boxes ⟨_, _, _, gone, _⟩
  exact absurd ((gone 0).mp (by decide)) (by decide)

end IotCamera.Nna
