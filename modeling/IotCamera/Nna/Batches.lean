import IotCamera.Nna.Scaling

/-!
# A batch submits its own entries

The array a call submits should be the one it built from its boxes. It is, as long
as the object holds no array when the call begins; and the object holds one after
every submission that failed. The next call then has no array of its own to write
to, and submits the old one with its own count.

So a sequence of calls on a new object goes well exactly when no submission but the
last one fails, and no number of boxes makes the size of the array wrap.
-/

namespace IotCamera.Nna.Scaling

open Memory

/-- An image of one grey plane at a physical address, of which a rectangle is used. The
addresses of further planes are not set. -/
structure GreyImage (addr width height : Word) (clipRect : G2dRect) (image : G2dImageEnh) : Prop where
  format : image.format = g2dFormatY8
  addr : image.laddr0 = addr
  width : image.width = width
  height : image.height = height
  aligned : image.align0 = 0 ∧ image.align1 = 0 ∧ image.align2 = 0
  clipRect : image.clipRect = clipRect
  blended : image.color = 0xFFFFFFFF ∧ image.alpha = 0 ∧ image.mode = g2dGlobalAlpha
  physical : image.usePhyAddr = 1

/-- The entry of a box: a copy of the box, with its last row and column, out of the frame
into the place behind the results of the boxes before it. -/
structure EntryOf (resize : Resize) (index : Nat) (box : Box) (entry : MixerPara) : Prop where
  operation : entry.opFlag = opBitblt ∧ entry.flagH = g2dBltNoneH
  source : GreyImage resize.srcAddr resize.srcw resize.srch
    ⟨box.x1, box.y1, box.x2 - box.x1 + 1, box.y2 - box.y1 + 1⟩ entry.srcImageH
  destination : GreyImage (resize.dstAddr + BitVec.ofNat 32 index * (resize.dstw * resize.dsth))
    resize.dstw resize.dsth ⟨0, 0, resize.dstw, resize.dsth⟩ entry.dstImageH

/-- Each box has its entry. -/
def EntriesOf (resize : Resize) (entries : List MixerPara) : Prop :=
  ∀ index box, resize.boxList[index]? = some box →
    ∃ entry, entries[index]? = some entry ∧ EntryOf resize index box entry

/-- Describing an image sets all of it but the addresses of further planes. -/
theorem describe_grey (image : G2dImageEnh) (target : ScaleTaget) (clipRect : G2dRect)
    (grey : target.format = g2dFormatY8) :
    GreyImage target.addr target.w target.h clipRect (image.describe target clipRect) :=
  ⟨grey, rfl, rfl, rfl, ⟨rfl, rfl, rfl⟩, rfl, ⟨rfl, rfl, rfl⟩, rfl⟩

/-- A grey image is in none of the formats with more planes. -/
theorem describe_one_plane (image : G2dImageEnh) (target : ScaleTaget) (clipRect : G2dRect)
    (grey : target.format = g2dFormatY8) :
    ¬ isYuv420 (image.describe target clipRect).format ∧ ¬ isSrcYuv422 (image.describe target clipRect).format ∧
      ¬ isDstYuv422 (image.describe target clipRect).format := by
  change ¬ isYuv420 target.format ∧ ¬ isSrcYuv422 target.format ∧ ¬ isDstYuv422 target.format
  rw [grey]
  decide

/-- An entry for grey images is described and no more. -/
theorem fill_grey (entry : MixerPara) (info : ScaleInfo) (source : info.src.format = g2dFormatY8)
    (destination : info.dst.format = g2dFormatY8) :
    entry.fill info = ⟨opBitblt, g2dBltNoneH,
      entry.srcImageH.describe info.src
        ⟨info.cropInfo.x, info.cropInfo.y, info.cropInfo.width, info.cropInfo.height⟩,
      entry.dstImageH.describe info.dst ⟨0, 0, info.dst.w, info.dst.h⟩⟩ := by
  obtain ⟨srcYuv420, srcYuv422, -⟩ := describe_one_plane entry.srcImageH info.src
    ⟨info.cropInfo.x, info.cropInfo.y, info.cropInfo.width, info.cropInfo.height⟩ source
  obtain ⟨dstYuv420, -, dstYuv422⟩ := describe_one_plane entry.dstImageH info.dst
    ⟨0, 0, info.dst.w, info.dst.h⟩ destination
  rw [MixerPara.fill, if_neg srcYuv420, if_neg srcYuv422, if_neg dstYuv420, if_neg dstYuv422]

/-- What is written from the description of a box is the entry of the box. -/
theorem fill_entry (resize : Resize) (index : Nat) (box : Box) (entry : MixerPara) (info : ScaleInfo) :
    EntryOf resize index box (entry.fill (info.describe resize
      (resize.dstAddr + BitVec.ofNat 32 index * (resize.dstw * resize.dsth)) box)) := by
  rw [fill_grey _ _ rfl rfl]
  have source := describe_grey entry.srcImageH
    ⟨info.src.sfd, g2dFormatY8, info.src.channel, resize.srcw, resize.srch, resize.srcAddr⟩
    ⟨box.x1, box.y1, box.x2 - box.x1 + 1, box.y2 - box.y1 + 1⟩ rfl
  have destination := describe_grey entry.dstImageH
    ⟨info.dst.sfd, g2dFormatY8, info.dst.channel, resize.dstw, resize.dsth,
      resize.dstAddr + BitVec.ofNat 32 index * (resize.dstw * resize.dsth)⟩
    ⟨0, 0, resize.dstw, resize.dsth⟩ rfl
  exact ⟨⟨rfl, rfl⟩, source, destination⟩

/-- The call builds its entries in an array that has room for them, and that array
and the number of its boxes are what it submits. -/
def OwnBatch (self : AwG2d) (resize : Resize) : Prop :=
  ∃ after entries, nnaHwResizeQg self resize =
      .ok (after, some ⟨some entries, ⟨self.g2dFd, some entries, resize.boxList.length⟩⟩) ∧
    resize.boxList.length ≤ entries.length ∧ EntriesOf resize entries

/-- Both arrays of a call are given. -/
def Mallocs (resize : Resize) : Prop := resize.infoMalloc ≠ none ∧ resize.entryMalloc ≠ none

/-- An array has its entries unless the product of the sizes wraps. -/
theorem malloc_array_length {α : Type} (sizeof count : Nat) (memory : Nat → α)
    (bytes : 0 < sizeof) (fits : sizeof * count < 2 ^ 32) :
    (mallocArray sizeof count memory).length = count := by
  rw [mallocArray, List.length_map, List.length_range, Nat.mod_eq_of_lt fits]
  exact Nat.mul_div_cancel_left count bytes

/-- An array whose size wraps is too short for its entries. -/
theorem malloc_array_short {α : Type} (sizeof count : Nat) (memory : Nat → α)
    (wraps : 2 ^ 32 ≤ sizeof * count) :
    (mallocArray sizeof count memory).length < count := by
  rw [mallocArray, List.length_map, List.length_range]
  apply Nat.div_lt_of_lt_mul
  exact lt_of_lt_of_le (Nat.mod_lt _ (by decide)) wraps

/-- With room for them, the boxes are described in order. -/
theorem scale_loop_describes (resize : Resize) (tmpDst : Word) (boxes : List Box)
    (infos : List ScaleInfo) (room : boxes.length ≤ infos.length) :
    ∃ described, scaleLoop resize tmpDst boxes infos = .ok described ∧
      described.length = infos.length ∧
      ∀ index box, boxes[index]? = some box → ∃ info : ScaleInfo, described[index]? = some
        (info.describe resize (tmpDst + BitVec.ofNat 32 index * (resize.dstw * resize.dsth)) box) := by
  induction boxes generalizing tmpDst infos with
  | nil => exact ⟨infos, rfl, rfl, fun index box none => by simp at none⟩
  | cons first boxes inductionHypothesis =>
    cases infos with
    | nil => simp at room
    | cons info infos =>
      obtain ⟨described, looped, length, each⟩ := inductionHypothesis
        (tmpDst + resize.dstw * resize.dsth) infos (by simpa using room)
      refine ⟨info.describe resize tmpDst first :: described, ?_, by simp [length], ?_⟩
      · rw [scaleLoop, looped]
        rfl
      · intro index box found
        cases index with
        | zero =>
          obtain rfl : first = box := by simpa using found
          exact ⟨info, by simp⟩
        | succ index =>
          obtain ⟨other, placed⟩ := each index box (by simpa using found)
          refine ⟨other, ?_⟩
          rw [List.getElem?_cons_succ, placed]
          congr 2
          rw [BitVec.ofNat_add, BitVec.add_mul, BitVec.one_mul, BitVec.add_assoc,
            BitVec.add_comm (resize.dstw * resize.dsth)]

/-- With room for them and descriptions of them, the entries are written in order. -/
theorem init_loop_writes (count : Nat) (infos : List ScaleInfo) (entries : List MixerPara)
    (described : count ≤ infos.length) (room : count ≤ entries.length) :
    ∃ written, initLoop count infos entries = .ok written ∧ written.length = entries.length ∧
      ∀ index < count, ∀ info, infos[index]? = some info →
        ∃ entry : MixerPara, written[index]? = some (entry.fill info) := by
  induction count generalizing infos entries with
  | zero => exact ⟨entries, by simp [initLoop], rfl, fun index impossible => by omega⟩
  | succ count inductionHypothesis =>
    cases infos with
    | nil => simp at described
    | cons first infos =>
      cases entries with
      | nil => simp at room
      | cons entry entries =>
        obtain ⟨written, looped, length, each⟩ := inductionHypothesis infos entries
          (by simpa using described) (by simpa using room)
        refine ⟨entry.fill first :: written, ?_, by simp [length], ?_⟩
        · rw [initLoop, looped]
          rfl
        · intro index below info found
          cases index with
          | zero =>
            obtain rfl : first = info := by simpa using found
            exact ⟨entry, by simp⟩
          | succ index =>
            obtain ⟨other, placed⟩ := each index (by omega) info (by simpa using found)
            exact ⟨other, by simpa using placed⟩

/-- Writing more entries than the array has goes outside. -/
theorem init_loop_outside (count : Nat) (infos : List ScaleInfo) (entries : List MixerPara)
    (short : entries.length < count) : initLoop count infos entries = .error .outside := by
  induction count generalizing infos entries with
  | zero => simp at short
  | succ count inductionHypothesis =>
    cases infos with
    | nil => rfl
    | cons first infos =>
      cases entries with
      | nil => rfl
      | cons entry entries =>
        rw [initLoop, inductionHypothesis infos entries (by simpa using short)]
        rfl

/-- The object after a batch of its own: the array stays when the submission failed. -/
def left (self : AwG2d) (resize : Resize) (entries : List MixerPara) : AwG2d :=
  ⟨self.g2dFd, resize.boxList.length, if resize.ioctl < 0 then some entries else none⟩

/-- A call on an object without an array builds one and submits it. -/
theorem resize_builds (self : AwG2d) (resize : Resize) (mallocs : Mallocs resize)
    (vacant : self.g2dInfo = none) (fits : sizeofMixerPara * resize.boxList.length < 2 ^ 32) :
    ∃ entries, nnaHwResizeQg self resize = .ok (left self resize entries,
        some ⟨some entries, ⟨self.g2dFd, some entries, resize.boxList.length⟩⟩) ∧
      resize.boxList.length ≤ entries.length ∧ EntriesOf resize entries := by
  obtain ⟨infoMemory, infoGiven⟩ := Option.ne_none_iff_exists'.mp mallocs.1
  obtain ⟨entryMemory, entryGiven⟩ := Option.ne_none_iff_exists'.mp mallocs.2
  have infoFits : sizeofScaleInfo * resize.boxList.length < 2 ^ 32 :=
    lt_of_le_of_lt (Nat.mul_le_mul_right _ (by decide)) fits
  have infoLength := malloc_array_length sizeofScaleInfo resize.boxList.length infoMemory
    (by decide) infoFits
  have entryLength := malloc_array_length sizeofMixerPara resize.boxList.length entryMemory
    (by decide) fits
  obtain ⟨infos, scaled, infosLength, described⟩ := scale_loop_describes resize resize.dstAddr
    resize.boxList _ (le_of_eq infoLength.symm)
  obtain ⟨entries, looped, entriesLength, written⟩ := init_loop_writes resize.boxList.length infos
    (mallocArray sizeofMixerPara resize.boxList.length entryMemory)
    (by rw [infosLength, infoLength]) (le_of_eq entryLength.symm)
  refine ⟨entries, ?_, by rw [entriesLength, entryLength], ?_⟩
  · by_cases failed : resize.ioctl < 0
    · simp only [nnaHwResizeQg, infoGiven, scaled, awG2dInit, vacant, entryGiven, Option.map_some,
        looped, awG2dProcess, if_pos failed, left, bind, Except.bind, pure, Except.pure]
    · simp only [nnaHwResizeQg, infoGiven, scaled, awG2dInit, vacant, entryGiven, Option.map_some,
        looped, awG2dProcess, if_neg failed, left, bind, Except.bind, pure, Except.pure]
  · intro index box found
    obtain ⟨info, placed⟩ := described index box found
    have below : index < resize.boxList.length := (List.getElem?_eq_some_iff.mp found).1
    obtain ⟨entry, stored⟩ := written index below _ placed
    exact ⟨_, stored, fill_entry resize index box entry info⟩

/-- A call whose sizes wrap does not return with an array of its own. -/
theorem wrapped_not_own (self : AwG2d) (resize : Resize) (mallocs : Mallocs resize)
    (wraps : 2 ^ 32 ≤ sizeofMixerPara * resize.boxList.length) : ¬ OwnBatch self resize := by
  obtain ⟨infoMemory, infoGiven⟩ := Option.ne_none_iff_exists'.mp mallocs.1
  obtain ⟨entryMemory, entryGiven⟩ := Option.ne_none_iff_exists'.mp mallocs.2
  rintro ⟨after, entries, called, -⟩
  rw [nnaHwResizeQg, infoGiven] at called
  obtain ⟨infos, -, called⟩ := bind_ok _ _ _ called
  obtain ⟨result, initialised, -⟩ := bind_ok _ _ _ called
  have outside := init_loop_outside resize.boxList.length infos _
    (malloc_array_short sizeofMixerPara resize.boxList.length entryMemory wraps)
  cases held : self.g2dInfo with
  | none => simp [awG2dInit, held, entryGiven, outside, bind, Except.bind] at initialised
  | some stale =>
    have some_box : resize.boxList.length ≠ 0 := fun zero => by simp [zero] at wraps
    simp [awG2dInit, held, some_box] at initialised

/-- A call on an object that still has an array builds none. -/
theorem stale_not_own (self : AwG2d) (resize : Resize) (stale : List MixerPara)
    (mallocs : Mallocs resize) (held : self.g2dInfo = some stale) : ¬ OwnBatch self resize := by
  obtain ⟨infoMemory, infoGiven⟩ := Option.ne_none_iff_exists'.mp mallocs.1
  rintro ⟨after, entries, called, -⟩
  rw [nnaHwResizeQg, infoGiven] at called
  obtain ⟨infos, -, called⟩ := bind_ok _ _ _ called
  by_cases none : resize.boxList.length = 0
  · simp [awG2dInit, held, none, bind, Except.bind, pure, Except.pure] at called
  · simp [awG2dInit, held, none, bind, Except.bind] at called

/-- A call submits its own batch exactly when the object has no array and the size does
not wrap. -/
theorem own_batch_iff (self : AwG2d) (resize : Resize) (mallocs : Mallocs resize) :
    OwnBatch self resize ↔
      self.g2dInfo = none ∧ sizeofMixerPara * resize.boxList.length < 2 ^ 32 := by
  constructor
  · intro own
    refine ⟨?_, ?_⟩
    · cases held : self.g2dInfo with
      | none => rfl
      | some stale => exact absurd own (stale_not_own self resize stale mallocs held)
    · by_contra wraps
      exact wrapped_not_own self resize mallocs (Nat.le_of_not_lt wraps) own
  · rintro ⟨vacant, fits⟩
    obtain ⟨entries, called, room, each⟩ := resize_builds self resize mallocs vacant fits
    exact ⟨_, entries, called, room, each⟩

/-- The object after a call that built its batch. -/
theorem step_left (self : AwG2d) (resize : Resize) (mallocs : Mallocs resize)
    (vacant : self.g2dInfo = none) (fits : sizeofMixerPara * resize.boxList.length < 2 ^ 32) :
    ∃ entries, step self resize = .ok (left self resize entries) := by
  obtain ⟨entries, called, -⟩ := resize_builds self resize mallocs vacant fits
  exact ⟨entries, by simp only [step, called]⟩

/-- After a failed submission no call submits its own batch. -/
theorem failed_meets_iff (self : AwG2d) (stale : List MixerPara) (calls : List Resize)
    (mallocs : ∀ resize ∈ calls, Mallocs resize) (held : self.g2dInfo = some stale) :
    Runs.Meets step OwnBatch self calls ↔ calls = [] := by
  cases calls with
  | nil => exact iff_of_true trivial rfl
  | cons resize rest =>
    refine iff_of_false ?_ (List.cons_ne_nil resize rest)
    rintro ⟨own, -⟩
    exact stale_not_own self resize stale (mallocs resize List.mem_cons_self) held own

/-- From an object without an array, each call that succeeds leaves one without an array
to the calls after it. -/
theorem vacant_meets_iff (self : AwG2d) (calls : List Resize)
    (mallocs : ∀ resize ∈ calls, Mallocs resize) (vacant : self.g2dInfo = none) :
    Runs.Meets step OwnBatch self calls ↔
      (∀ resize ∈ calls, sizeofMixerPara * resize.boxList.length < 2 ^ 32) ∧
        ∀ resize ∈ calls.dropLast, 0 ≤ resize.ioctl := by
  induction calls generalizing self with
  | nil => simp [Runs.Meets]
  | cons resize rest inductionHypothesis =>
    have given := mallocs resize List.mem_cons_self
    have others : ∀ other ∈ rest, Mallocs other :=
      fun other member => mallocs other (List.mem_cons_of_mem resize member)
    rw [Runs.Meets, own_batch_iff self resize given, List.forall_mem_cons]
    by_cases fits : sizeofMixerPara * resize.boxList.length < 2 ^ 32
    case neg => exact iff_of_false (fun own => fits own.1.2) (fun small => fits small.1.1)
    obtain ⟨entries, called⟩ := step_left self resize given vacant fits
    simp only [called, vacant, fits, true_and]
    by_cases failed : resize.ioctl < 0
    · have stale : (left self resize entries).g2dInfo = some entries := if_pos failed
      rw [failed_meets_iff _ entries rest others stale]
      cases rest with
      | nil => simp
      | cons other rest =>
        refine iff_of_false (List.cons_ne_nil other rest) ?_
        rintro ⟨-, succeed⟩
        have success := succeed resize List.mem_cons_self
        omega
    · have freed : (left self resize entries).g2dInfo = none := if_neg failed
      rw [inductionHypothesis _ others freed]
      cases rest with
      | nil => simp
      | cons other rest =>
        have succeeded : 0 ≤ resize.ioctl := Int.not_lt.mp failed
        refine and_congr Iff.rfl ?_
        rw [List.dropLast_cons_of_ne_nil (List.cons_ne_nil other rest), List.forall_mem_cons,
          and_iff_right succeeded]

/-- On a new object, every call of a sequence builds and submits its own batch exactly
when no size wraps and no submission but the last fails. -/
theorem own_batches_iff (g2dFd : Int) (g2dInfoNum : Nat) (calls : List Resize)
    (mallocs : ∀ resize ∈ calls, Mallocs resize) :
    Runs.Meets step OwnBatch (awG2dCreate g2dFd g2dInfoNum) calls ↔
      (∀ resize ∈ calls, sizeofMixerPara * resize.boxList.length < 2 ^ 32) ∧
        ∀ resize ∈ calls.dropLast, 0 ≤ resize.ioctl :=
  vacant_meets_iff (awG2dCreate g2dFd g2dInfoNum) calls mallocs rfl

/-- One box of a frame of the camera, scaled to the network's input. -/
def oneBox (ioctl : Int) : Resize :=
  ⟨0x80000000, 128, 128, 0x80200000, 640, 360, [⟨0, 0, 63, 63⟩],
    some fun _ => ⟨0, ⟨0, 0, 0, 0, 0, 0⟩, ⟨0, 0, 0, 0, 0, 0⟩, ⟨0, 0, 0, 0⟩⟩,
    some fun _ => ⟨0, 0, ⟨0, 0, 0, 0, 0, 0, 0, 0, 0, 0, ⟨0, 0, 0, 0⟩, 0, 0, 0⟩,
      ⟨0, 0, 0, 0, 0, 0, 0, 0, 0, 0, ⟨0, 0, 0, 0⟩, 0, 0, 0⟩⟩, ioctl⟩

/-- Both arrays of the call are given. -/
theorem one_box_mallocs (ioctl : Int) : Mallocs (oneBox ioctl) :=
  ⟨Option.some_ne_none _, Option.some_ne_none _⟩

/-- Two frames go well when only the second submission fails. -/
theorem own_batches_two : (∀ resize ∈ [oneBox 0, oneBox (-1)], Mallocs resize) ∧
    Runs.Meets step OwnBatch (awG2dCreate 3 0) [oneBox 0, oneBox (-1)] := by
  have mallocs : ∀ resize ∈ [oneBox 0, oneBox (-1)], Mallocs resize := by
    simp [one_box_mallocs]
  exact ⟨mallocs, (own_batches_iff 3 0 _ mallocs).mpr (by decide)⟩

/-- When the first submission fails, the second call writes through a null pointer. -/
theorem failed_batch_poisons_next :
    ¬ Runs.Meets step OwnBatch (awG2dCreate 3 0) [oneBox (-1), oneBox 0] ∧
      Runs.reason (Runs.run step (awG2dCreate 3 0) [oneBox (-1), oneBox 0]) =
        some .nullPointer := by
  refine ⟨?_, by decide⟩
  rw [vacant_meets_iff _ _ (by simp [one_box_mallocs]) rfl]
  decide

end IotCamera.Nna.Scaling
