import Mathlib.Data.List.TakeWhile
import IotCamera.Wifi.PidList

/-!
# Whom the four functions kill

The process of a directory in `/proc` is the one whose number the directory is called by,
and its name is the field of that key in its status file, up to the end of the line. The
functions should signal the processes of one name, each of them once.

`getPidByName` takes the second word of the line for the name, and does not look at what
`sscanf` returns. A name of several words is taken for its first one. A line without a
second word leaves the name of an earlier process in the buffer, and then the directory is
recorded when that earlier name is the one looked for. So what is recorded depends on the
name that is carried from one entry to the next. Here the run of the loop is reduced to that
name and to the entries that are recorded, and from there it is said for which listings the
right processes are signalled.
-/

namespace IotCamera.Wifi

open Memory

/-- The first line of a file, without its end. -/
def firstLine (file : List Byte) : List Byte := file.takeWhile (· ≠ 0x0A)

/-- What stands in front of the name of a process in its status file. -/
def nameKey : List Byte := text ['N', 'a', 'm', 'e', ':', '\t']

/-- The name of a process is what stands behind the key on the first line of its status
file. -/
def Entry.processName (entry : Entry) : Option (List Byte) :=
  if entry.skipped then none
  else entry.status.bind fun file =>
    if nameKey <+: firstLine file then some ((firstLine file).drop nameKey.length) else none

/-- What is read of the status file: its first line, as far as the buffer has room for it. -/
def Entry.line (entry : Entry) : Option (List Byte) :=
  if entry.skipped then none else entry.status.bind (fgets (BUF_SIZE - 1))

/-- The second word of the line that is read. -/
def Entry.scannedName (entry : Entry) : Option (List Byte) :=
  entry.line.bind fun line => scanSecondWord (cString line)

/-- The number of a process. A directory that is not called by a positive number in the
range of an `int` belongs to no process. -/
def Entry.pid (entry : Entry) : Option Int :=
  let number := digitsValue entry.d_name
  if entry.d_name.all isdigit ∧ 0 < number ∧ number < 2 ^ 31 then some number else none

/-- The entries whose own status file has a name. -/
def named (task_name : List Byte) (entries : List Entry) : List Entry :=
  entries.filter fun entry => entry.processName = some task_name

/-- The path and the second word of an entry have room in their buffers. -/
def Entry.Fits (entry : Entry) : Prop :=
  entry.skipped = false →
    entry.d_name.length ≤ 36 ∧ ∀ name ∈ entry.scannedName, name.length ≤ 49

instance (entry : Entry) : Decidable entry.Fits :=
  inferInstanceAs (Decidable (_ → _ ∧ ∀ name ∈ entry.scannedName, name.length ≤ 49))

/-- The entries that are recorded when the buffer holds a name at first. -/
def recorded (task_name : List Byte) : List Byte → List Entry → List Entry
  | _, [] => []
  | carried, entry :: rest =>
    let name := entry.scannedName.getD carried
    if entry.line.isSome ∧ name = task_name then entry :: recorded task_name name rest
    else recorded task_name name rest

/-- No line without a second word comes while the buffer holds the name looked for. -/
def Fresh (task_name : List Byte) : List Byte → List Entry → Prop
  | _, [] => True
  | carried, entry :: rest =>
    (entry.line.isSome → entry.scannedName = none → carried ≠ task_name) ∧
      Fresh task_name (entry.scannedName.getD carried) rest

instance decidableFresh (task_name : List Byte) :
    (carried : List Byte) → (entries : List Entry) → Decidable (Fresh task_name carried entries)
  | _, [] => isTrue trivial
  | _, _ :: rest => @instDecidableAnd _ _ inferInstance (decidableFresh task_name _ rest)

/-- The listings for which the right processes are signalled. -/
structure Sound (task_name carried : List Byte) (entries : List Entry) : Prop where
  fits : ∀ entry ∈ entries, entry.Fits
  numbered : ∀ entry ∈ named task_name entries, entry.pid ≠ none
  few : (named task_name entries).length ≤ 32
  fresh : Fresh task_name carried entries
  /-- Only processes of the name have it for the second word of their lines. -/
  plain : ∀ entry ∈ entries, entry.scannedName = some task_name → entry.processName = some task_name

/-! ## Strings in buffers -/

/-- A string that was written is read back. -/
theorem written_string {size : Nat} (buffer : Block size) (string : List Byte)
    (room : string.length + 1 ≤ size) (whole : ∀ byte ∈ string, byte ≠ 0) :
    bufferString (buffer.store 0 (string ++ [0])) = string := by
  have front : (buffer.store 0 (string ++ [0])).bytes (string.length + 1) = string ++ [0] := by
    apply List.ext_getElem (by simp [Block.bytes])
    intro index _ inside
    have within : 0 ≤ index ∧ index < 0 + (string ++ [0]).length :=
      ⟨Nat.zero_le _, (Nat.zero_add _).symm ▸ inside⟩
    simp only [Block.bytes, Block.store, Buffers.slice, List.getElem_map, List.getElem_range',
      Nat.zero_add, Nat.one_mul] at within ⊢
    rw [if_pos within, Nat.sub_zero, List.getD_eq_getElem _ _ inside]
  obtain ⟨behind, rfl⟩ := Nat.exists_eq_add_of_le room
  rw [bufferString, cString, Block.bytes, ← Buffers.slice_append]
  rw [Block.bytes] at front
  rw [front, List.append_assoc, List.takeWhile_append_of_pos (by simpa using whole)]
  simp

/-- A word of a string has no terminator in it. -/
theorem word_whole (bytes word : List Byte) (scanned : scanSecondWord (cString bytes) = some word) :
    ∀ byte ∈ word, byte ≠ 0 := by
  simp only [scanSecondWord, Option.ite_none_left_eq_some, Option.some.injEq] at scanned
  obtain ⟨-, -, rfl⟩ := scanned
  intro byte inside
  have rest := (List.dropWhile_sublist _).subset ((List.takeWhile_sublist _).subset inside)
  have behind := (List.dropWhile_sublist _).subset ((List.dropWhile_sublist _).subset rest)
  simpa using List.mem_takeWhile_imp behind

/-- A string is written exactly when it and its terminator have room. -/
theorem write_string_ok {size : Nat} (buffer : Block size) (string : List Byte) :
    (∃ written, writeString buffer string = .ok written) ↔ string.length + 1 ≤ size := by
  rw [writeString]
  split
  · exact iff_of_true ⟨_, rfl⟩ ‹_›
  · exact iff_of_false (fault_no_result _) ‹_›

/-- A name that has room is in the buffer then; without one, the name before it is. -/
theorem name_taken (cur_task_name : Block 50) (buf : List Byte)
    (room : ∀ name, scanSecondWord (cString buf) = some name → name.length ≤ 49) :
    ∃ buffer, takeName cur_task_name buf = .ok buffer ∧
      bufferString buffer = (scanSecondWord (cString buf)).getD (bufferString cur_task_name) := by
  rw [takeName]
  cases scanned : scanSecondWord (cString buf) with
  | none => exact ⟨cur_task_name, rfl, rfl⟩
  | some word =>
    have inside : word.length + 1 ≤ 50 := Nat.succ_le_succ (room word scanned)
    exact ⟨_, if_pos inside, written_string cur_task_name word inside (word_whole buf word scanned)⟩

/-- A name that was taken fitted its buffer. -/
theorem name_taken_room (cur_task_name buffer : Block 50) (buf : List Byte)
    (taken : takeName cur_task_name buf = .ok buffer) :
    ∀ name, scanSecondWord (cString buf) = some name → name.length ≤ 49 := by
  intro name scanned
  rw [takeName, scanned] at taken
  exact Nat.le_of_succ_le_succ ((write_string_ok cur_task_name name).mp ⟨buffer, taken⟩)

/-! ## One entry -/

/-- The path of a directory fits its buffer exactly when the name has at most 36 bytes. -/
theorem path_written (d_name : List Byte) :
    (∃ filepath, writeString (Block.uniform 50 0) (filepathOf d_name) = .ok filepath) ↔
      d_name.length ≤ 36 := by
  have size : (filepathOf d_name).length = d_name.length + 13 := by
    simp only [filepathOf, text, List.length_append, List.length_map, List.length_cons, List.length_nil]
    omega
  rw [write_string_ok, size]
  omega

section Entries
variable (task_name : List Byte) (scan : Scan) (entry : Entry)

/-- An entry that is skipped changes nothing. -/
theorem scan_entry_skipped (skipped : entry.skipped = true) :
    scanEntry task_name scan entry = .ok scan := if_pos skipped

/-- The status file of another entry is read to its first line. -/
theorem scan_entry_line (directory : entry.skipped = false) (short : entry.d_name.length ≤ 36) :
    scanEntry task_name scan entry =
      entry.line.elim (.ok scan) (scanLine task_name scan entry.d_name) := by
  obtain ⟨filepath, path⟩ := (path_written entry.d_name).mpr short
  simp only [scanEntry, Entry.line, directory, path, Bool.false_eq_true, if_false, bind, Except.bind]
  cases entry.status.bind (fgets (BUF_SIZE - 1)) with
  | none => rfl
  | some buf => rfl

/-- A first line is compared by its second word, or by the name before it when there is none.
-/
theorem scan_line_name (buf : List Byte)
    (room : ∀ name, scanSecondWord (cString buf) = some name → name.length ≤ 49) :
    ∃ buffer : Block 50,
      bufferString buffer = (scanSecondWord (cString buf)).getD (bufferString scan.cur_task_name) ∧
      scanLine task_name scan entry.d_name buf =
        if bufferString buffer = task_name then
          (record scan.plist entry.d_name).map (Scan.mk buffer)
        else .ok ⟨buffer, scan.plist⟩ := by
  obtain ⟨buffer, taken, holds⟩ := name_taken scan.cur_task_name buf room
  refine ⟨buffer, holds, ?_⟩
  simp only [scanLine, taken, bind, Except.bind]
  cases record scan.plist entry.d_name with
  | error fault => rfl
  | ok plist => rfl

/-- An entry that fits leaves its second word in the buffer, if it has one, and is recorded when
a line was read and the buffer holds the name looked for. -/
theorem scan_entry_fits (fits : entry.Fits) :
    ∃ buffer : Block 50,
      bufferString buffer = entry.scannedName.getD (bufferString scan.cur_task_name) ∧
      scanEntry task_name scan entry =
        if entry.line.isSome ∧ bufferString buffer = task_name then
          (record scan.plist entry.d_name).map (Scan.mk buffer)
        else .ok ⟨buffer, scan.plist⟩ := by
  cases directory : entry.skipped with
  | true =>
    have unread : entry.line = none := if_pos directory
    exact ⟨scan.cur_task_name, by simp [Entry.scannedName, unread],
      by simp [unread, scan_entry_skipped task_name scan entry directory]⟩
  | false =>
    obtain ⟨short, room⟩ := fits directory
    rw [scan_entry_line task_name scan entry directory short]
    rw [Entry.scannedName] at room ⊢
    cases read : entry.line with
    | none => exact ⟨scan.cur_task_name, rfl, by simp⟩
    | some buf =>
      rw [read, Option.bind_some] at room
      simpa using scan_line_name task_name scan entry buf room

/-- An entry that does not fit has no result. -/
theorem scan_entry_inside (after : Scan) (returned : scanEntry task_name scan entry = .ok after) :
    entry.Fits := by
  intro directory
  have short : entry.d_name.length ≤ 36 := by
    rw [scanEntry, directory] at returned
    obtain ⟨filepath, written, -⟩ := bind_ok _ _ _ returned
    exact (path_written entry.d_name).mp ⟨filepath, written⟩
  refine ⟨short, ?_⟩
  intro name found
  rw [scan_entry_line task_name scan entry directory short] at returned
  obtain ⟨buf, read, scanned⟩ := Option.bind_eq_some_iff.mp found
  rw [read, Option.elim_some, scanLine] at returned
  obtain ⟨buffer, taken, -⟩ := bind_ok _ _ _ returned
  exact name_taken_room scan.cur_task_name buffer buf taken name scanned

end Entries

/-! ## The run over a listing -/

/-- Record the numbers of some entries, one after the other. -/
def recordAll (plist : Pidlist) (entries : List Entry) : Except Undefined Pidlist :=
  entries.foldlM (fun plist entry => record plist entry.d_name) plist

/-- When all entries fit, a run records the entries that the carried names select. -/
theorem scan_records (task_name : List Byte) (entries : List Entry) (scan : Scan)
    (fits : ∀ entry ∈ entries, entry.Fits) :
    (entries.foldlM (scanEntry task_name) scan).map Scan.plist =
      recordAll scan.plist (recorded task_name (bufferString scan.cur_task_name) entries) := by
  induction entries generalizing scan with
  | nil => rfl
  | cons entry rest inductionHypothesis =>
    obtain ⟨buffer, holds, scanned⟩ :=
      scan_entry_fits task_name scan entry (fits entry List.mem_cons_self)
    have later : ∀ entry ∈ rest, entry.Fits := fun entry inside => fits entry (List.mem_cons_of_mem _ inside)
    rw [List.foldlM_cons, scanned, recorded, ← holds]
    split
    · rw [recordAll, List.foldlM_cons]
      cases record scan.plist entry.d_name with
      | error fault => rfl
      | ok plist => exact inductionHypothesis ⟨buffer, plist⟩ later
    · exact inductionHypothesis ⟨buffer, scan.plist⟩ later

/-- A run that returns has met only entries that fit. -/
theorem scan_inside (task_name : List Byte) (entries : List Entry) (scan after : Scan)
    (returned : entries.foldlM (scanEntry task_name) scan = .ok after) :
    ∀ entry ∈ entries, entry.Fits := by
  induction entries generalizing scan with
  | nil => exact List.forall_mem_nil _
  | cons entry rest inductionHypothesis =>
    rw [List.foldlM_cons] at returned
    obtain ⟨between, scanned, behind⟩ := bind_ok _ _ _ returned
    exact List.forall_mem_cons.mpr
      ⟨scan_entry_inside task_name scan entry between scanned, inductionHypothesis between behind⟩

/-! ## What is recorded -/

/-- A record that returns was made inside the array. -/
theorem record_counts (plist after : Pidlist) (d_name : List Byte)
    (returned : record plist d_name = .ok after) : plist.cnt < 32 ∧ after.cnt = plist.cnt + 1 := by
  rw [record] at returned
  split at returned
  case isFalse => cases returned
  case isTrue room =>
    refine ⟨room, ?_⟩
    cases read : scanInt d_name with
    | none =>
      rw [read] at returned
      cases returned
      rfl
    | some number =>
      simp only [read] at returned
      split at returned
      · cases returned
        rfl
      · cases returned

/-- Entries are recorded while there is room for them. -/
theorem record_all_counts (entries : List Entry) (plist after : Pidlist) (inside : plist.cnt ≤ 32)
    (returned : recordAll plist entries = .ok after) :
    after.cnt = plist.cnt + entries.length ∧ after.cnt ≤ 32 := by
  induction entries generalizing plist with
  | nil =>
    cases returned
    exact ⟨rfl, inside⟩
  | cons entry rest inductionHypothesis =>
    rw [recordAll, List.foldlM_cons] at returned
    obtain ⟨between, recorded, behind⟩ := bind_ok _ _ _ returned
    obtain ⟨room, counted⟩ := record_counts plist between entry.d_name recorded
    have rest := inductionHypothesis between (by omega) behind
    rw [List.length_cons]
    omega

/-- A digit is neither a blank nor a sign. -/
theorem digit_plain (byte : Byte) (digit : isdigit byte = true) :
    isspace byte = false ∧ byte ≠ 0x2B ∧ byte ≠ 0x2D := by
  simp only [isdigit, isspace, Bool.and_eq_true, decide_eq_true_eq, Bool.or_eq_false_iff,
    Bool.and_eq_false_iff, decide_eq_false_iff_not] at digit ⊢
  refine ⟨⟨?_, ?_⟩, ?_, ?_⟩ <;> bv_omega

/-- The number that a directory is called by is the one that is read. -/
theorem scan_int_pid (entry : Entry) (number : Int) (called : entry.pid = some number) :
    scanInt entry.d_name = some number ∧ 0 < number ∧ number < 2 ^ 31 := by
  simp only [Entry.pid, Option.ite_none_right_eq_some, Option.some.injEq] at called
  obtain ⟨⟨digits, positive, small⟩, rfl⟩ := called
  refine ⟨?_, by omega, by omega⟩
  cases name : entry.d_name with
  | nil =>
    rw [name] at positive
    exact absurd positive (by decide)
  | cons first rest =>
    rw [name] at digits
    obtain ⟨plain, noPlus, noMinus⟩ := digit_plain first (List.all_eq_true.mp digits first List.mem_cons_self)
    have start : (first :: rest).dropWhile isspace = first :: rest :=
      List.dropWhile_cons_of_neg (by rw [plain]; decide)
    have whole : (first :: rest).takeWhile isdigit = first :: rest :=
      List.takeWhile_eq_self_iff.mpr (List.all_eq_true.mp digits)
    simp only [scanInt, start, List.head?_cons, Option.some.injEq, noPlus, noMinus, or_self, if_false,
      whole, List.cons_ne_nil]

/-- A process that has room in the list is appended to it. -/
theorem record_pid (plist : Pidlist) (entry : Entry) (number : Int) (room : plist.cnt < 32)
    (called : entry.pid = some number) :
    ∃ after, record plist entry.d_name = .ok after ∧ after.cnt = plist.cnt + 1 ∧
      after.pids = plist.pids ++ [number] := by
  obtain ⟨read, positive, small⟩ := scan_int_pid entry number called
  have range : -2 ^ 31 ≤ number ∧ number < 2 ^ 31 := by omega
  refine ⟨⟨Function.update plist.pid plist.cnt number, plist.cnt + 1⟩, ?_, rfl, ?_⟩
  · rw [record, if_pos room, read]
    exact if_pos range
  · have before : (List.range plist.cnt).map (Function.update plist.pid plist.cnt number) = plist.pids := by
      apply List.map_congr_left
      intro index inside
      exact Function.update_of_ne (Nat.ne_of_lt (List.mem_range.mp inside)) _ _
    rw [Pidlist.pids, List.range_succ, List.map_append, before]
    simp

/-- With room for all of them, the recorded numbers are those of the entries, in order. -/
theorem record_all_pids (entries : List Entry) (plist : Pidlist)
    (room : plist.cnt + entries.length ≤ 32) (called : ∀ entry ∈ entries, entry.pid ≠ none) :
    ∃ after, recordAll plist entries = .ok after ∧ after.cnt = plist.cnt + entries.length ∧
      after.pids.map some = plist.pids.map some ++ entries.map Entry.pid := by
  induction entries generalizing plist with
  | nil => exact ⟨plist, rfl, rfl, by simp⟩
  | cons entry rest inductionHypothesis =>
    obtain ⟨here, later⟩ := List.forall_mem_cons.mp called
    obtain ⟨number, called⟩ := Option.ne_none_iff_exists'.mp here
    rw [List.length_cons] at room ⊢
    obtain ⟨between, recorded, counted, appended⟩ := record_pid plist entry number (by omega) called
    obtain ⟨after, returned, total, held⟩ := inductionHypothesis between (by omega) later
    refine ⟨after, ?_, by omega, ?_⟩
    · rw [recordAll, List.foldlM_cons, recorded]
      exact returned
    · rw [held, appended, List.map_cons, called]
      simp

/-! ## Names of one word -/

/-- A name of one word, for which a line has room. -/
structure OneWord (name : List Byte) : Prop where
  nonempty : name ≠ []
  spaceless : ∀ byte ∈ name, isspace byte = false
  whole : ∀ byte ∈ name, byte ≠ 0
  short : name.length ≤ 1000

/-- Behind its first line a file ends or goes on with the end of the line. -/
theorem status_split (file : List Byte) :
    ∃ behind, file = firstLine file ++ behind ∧ (behind = [] ∨ ∃ more, behind = 0x0A :: more) := by
  refine ⟨file.dropWhile (· ≠ 0x0A), List.takeWhile_append_dropWhile.symm, ?_⟩
  cases rest : file.dropWhile (· ≠ 0x0A) with
  | nil => exact Or.inl rfl
  | cons first more =>
    have stopped := List.head?_dropWhile_not (· ≠ 0x0A) file
    rw [rest] at stopped
    exact Or.inr ⟨more, by simpa using stopped⟩

/-- A short first line is read whole, with its end if it has one. -/
theorem fgets_short (file : List Byte) (nonempty : firstLine file ≠ [])
    (short : (firstLine file).length < BUF_SIZE - 2) :
    ∃ ending, (ending = [] ∨ ending = [0x0A]) ∧
      fgets (BUF_SIZE - 1) file = some (firstLine file ++ ending) := by
  obtain ⟨behind, split, stops⟩ := status_split file
  have line : ∀ byte ∈ firstLine file, decide (byte ≠ 0x0A) = true := by
    intro byte member
    rw [firstLine] at member
    simpa using List.mem_takeWhile_imp member
  have room : (firstLine file).length ≤ BUF_SIZE - 1 - 1 := short.le
  have file_nonempty : file ≠ [] := by
    rintro rfl
    exact nonempty rfl
  have most : file.take (BUF_SIZE - 1 - 1) =
      firstLine file ++ behind.take (BUF_SIZE - 1 - 1 - (firstLine file).length) := by
    conv_lhs => rw [split]
    rw [List.take_append, List.take_of_length_le room]
  obtain ⟨left, some⟩ : ∃ left, BUF_SIZE - 1 - 1 - (firstLine file).length = left + 1 :=
    Nat.exists_eq_add_one.mpr (Nat.sub_pos_of_lt short)
  rw [fgets, if_neg file_nonempty]
  simp only [most, some, List.takeWhile_append_of_pos line]
  rcases stops with rfl | ⟨more, rfl⟩
  · exact ⟨[], Or.inl rfl, by simp⟩
  · exact ⟨[0x0A], Or.inr rfl, by simp⟩

section Word
variable (name : List Byte) (word : OneWord name)

include word

/-- A word ends in front of a blank. -/
theorem scan_word_front (ending : List Byte) (ends : ending = [] ∨ ending = [0x0A]) :
    scanWord (name ++ ending) = (name, ending) := by
  obtain ⟨first, rest, rfl⟩ := List.exists_cons_of_ne_nil word.nonempty
  have begins : isspace first = false := word.spaceless first List.mem_cons_self
  have letters : ∀ byte ∈ first :: rest, (!isspace byte) = true :=
    fun byte member => by rw [word.spaceless byte member]; rfl
  have start : ((first :: rest) ++ ending).dropWhile isspace = (first :: rest) ++ ending :=
    List.dropWhile_cons_of_neg (by simp [begins])
  simp only [scanWord, start, List.takeWhile_append_of_pos letters, List.dropWhile_append_of_pos letters]
  rcases ends with rfl | rfl
  · simp
  · simp [isspace]

/-- The second word of a line with the key is the name. -/
theorem scan_key_name (ending : List Byte) (ends : ending = [] ∨ ending = [0x0A]) :
    scanSecondWord (cString (nameKey ++ name ++ ending)) = some name := by
  have whole : ∀ byte ∈ nameKey ++ name ++ ending, decide (byte ≠ 0) = true := by
    simp only [List.forall_mem_append]
    refine ⟨⟨by decide, fun byte member => decide_eq_true (word.whole byte member)⟩, ?_⟩
    rcases ends with rfl | rfl <;> decide
  have string : cString (nameKey ++ name ++ ending) = nameKey ++ name ++ ending :=
    List.takeWhile_eq_self_iff.mpr whole
  have key : scanWord (nameKey ++ name ++ ending) =
      (text ['N', 'a', 'm', 'e', ':'], 0x09 :: (name ++ ending)) := rfl
  have blank : scanWord (0x09 :: (name ++ ending)) = scanWord (name ++ ending) := rfl
  rw [string, scanSecondWord, key]
  simp only [blank, scan_word_front name word ending ends, if_neg word.nonempty]
  rfl

/-- The name of a process is the second word of the line, if it is one word. -/
theorem named_scanned (entry : Entry) (named : entry.processName = some name) :
    entry.scannedName = some name := by
  rw [Entry.processName] at named
  rw [Entry.scannedName, Entry.line]
  split at named
  · cases named
  · rename_i directory
    obtain ⟨file, status, field⟩ := Option.bind_eq_some_iff.mp named
    rw [Option.ite_none_right_eq_some] at field
    obtain ⟨⟨value, line⟩, behind⟩ := field
    rw [← line, List.drop_left, Option.some.injEq] at behind
    obtain rfl := behind
    have short := word.short
    have size : (nameKey ++ value).length = value.length + 6 := by
      rw [List.length_append, Nat.add_comm]
      rfl
    obtain ⟨ending, ends, read⟩ := fgets_short file (by rw [← line]; nofun)
      (by rw [← line, BUF_SIZE]; omega)
    rw [if_neg directory, status, Option.bind_some, read, ← line, Option.bind_some]
    exact scan_key_name value word ending ends

end Word

/-! ## Carried names -/

/-- The entries of a name, one by one. -/
theorem named_cons (task_name : List Byte) (entry : Entry) (rest : List Entry) :
    named task_name (entry :: rest) =
      if entry.processName = some task_name then entry :: named task_name rest
      else named task_name rest := by
  simp [named, List.filter_cons]

/-- An entry with a second word has a line. -/
theorem word_has_line (entry : Entry) (name : List Byte) (found : entry.scannedName = some name) :
    entry.line.isSome := by
  obtain ⟨line, read, -⟩ := Option.bind_eq_some_iff.mp found
  rw [read]
  rfl

section Carried
variable (task_name : List Byte) (word : OneWord task_name)

include word

/-- Every entry of the name is recorded. -/
theorem named_recorded (carried : List Byte) (entries : List Entry) :
    (named task_name entries).Sublist (recorded task_name carried entries) := by
  induction entries generalizing carried with
  | nil => exact List.Sublist.slnil
  | cons entry rest inductionHypothesis =>
    rw [named_cons, recorded]
    split
    case isTrue named =>
      have found := named_scanned task_name word entry named
      rw [if_pos ⟨word_has_line entry task_name found, by rw [found]; rfl⟩]
      exact (inductionHypothesis _).cons_cons entry
    case isFalse =>
      split
      · exact (inductionHypothesis _).cons entry
      · exact inductionHypothesis _

/-- No other entry is recorded exactly when no name is carried to a line without a second
word, and the second word is the name only where it is the whole name. -/
theorem recorded_named_iff (carried : List Byte) (entries : List Entry) :
    recorded task_name carried entries = named task_name entries ↔
      Fresh task_name carried entries ∧
        ∀ entry ∈ entries, entry.scannedName = some task_name → entry.processName = some task_name := by
  induction entries generalizing carried with
  | nil => exact iff_of_true rfl ⟨trivial, List.forall_mem_nil _⟩
  | cons entry rest inductionHypothesis =>
    -- One that is recorded without the name makes the one list longer than the other.
    have more : ∀ name, entry :: recorded task_name name rest ≠ named task_name rest := by
      intro name same
      have fewer := (named_recorded task_name word name rest).length_le
      have lengths := congrArg List.length same
      rw [List.length_cons] at lengths
      omega
    rw [named_cons, recorded, Fresh, List.forall_mem_cons]
    cases found : entry.scannedName with
    | some name =>
      have line := word_has_line entry name found
      by_cases same : name = task_name
      · by_cases named : entry.processName = some task_name
        · simp [line, same, named, inductionHypothesis]
        · rw [if_neg named, if_pos ⟨line, same⟩]
          exact iff_of_false (more _) fun parts => named (parts.2.1 (congrArg some same))
      · have unnamed : entry.processName ≠ some task_name := fun named =>
          same (Option.some.inj (found.symm.trans (named_scanned task_name word entry named)))
        simp [same, unnamed, inductionHypothesis]
    | none =>
      have unnamed : entry.processName ≠ some task_name := fun named => by
        rw [named_scanned task_name word entry named] at found
        cases found
      rw [if_neg unnamed, Option.getD_none]
      split
      case isTrue stale => exact iff_of_false (more _) fun parts => parts.1.1 stale.1 rfl stale.2
      case isFalse other =>
        rw [inductionHypothesis]
        constructor
        · exact fun parts => ⟨⟨fun line _ same => other ⟨line, same⟩, parts.1⟩, nofun, parts.2⟩
        · exact fun parts => ⟨parts.1.2, parts.2.2⟩

end Carried

/-! ## Signals -/

/-- What `getPidByName` and a function over it should do: the recorded numbers, as many as
are counted, are those of the processes of a name, and they are what is signalled. -/
def SignalsNamed (task_name : List Byte) (kill : Option (List Entry) → Scan → Except Undefined (List Int))
    (dir : Option (List Entry)) (scan : Scan) : Prop :=
  ∃ plist, getPidByName task_name dir scan = .ok plist ∧
    plist.cnt = (named task_name (dir.getD [])).length ∧
    plist.pids.map some = (named task_name (dir.getD [])).map Entry.pid ∧
    kill dir scan = .ok plist.pids

/-- The functions that kill, with the names they look for. -/
def daemons : List (List Byte × (Option (List Entry) → Scan → Except Undefined (List Int))) :=
  [(udhcpc, killdhcpc), (udhcpd, killdhcpd), (wpa_supplicant, killwpasupp), (hostapd, killhostapd)]

/-- The processes that were found are the ones that are signalled. -/
theorem kill_named (task_name : List Byte) (dir : Option (List Entry)) (scan : Scan) (plist : Pidlist)
    (found : getPidByName task_name dir scan = .ok plist) :
    killNamed task_name dir scan = .ok plist.pids := by
  rw [killNamed, found]
  rfl

/-- When all entries fit, those whose word is the name are recorded. -/
theorem found_recorded (task_name : List Byte) (entries : List Entry) (scan : Scan)
    (fits : ∀ entry ∈ entries, entry.Fits) :
    getPidByName task_name (some entries) scan =
      recordAll { scan.plist with cnt := 0 }
        (recorded task_name (bufferString scan.cur_task_name) entries) :=
  scan_records task_name entries _ fits

/-- A search that returned met only entries that fit. -/
theorem found_inside (task_name : List Byte) (entries : List Entry) (scan : Scan) (plist : Pidlist)
    (found : getPidByName task_name (some entries) scan = .ok plist) :
    ∀ entry ∈ entries, entry.Fits := by
  rw [getPidByName] at found
  cases ran : entries.foldlM (scanEntry task_name) { scan with plist := { scan.plist with cnt := 0 } } with
  | error fault =>
    simp only [ran] at found
    cases found
  | ok after => exact scan_inside task_name entries _ after ran

/-- From a sound listing the entries of the name are recorded, each with its number. -/
theorem sound_signals (task_name : List Byte) (word : OneWord task_name) (entries : List Entry)
    (scan : Scan) (sound : Sound task_name (bufferString scan.cur_task_name) entries) :
    SignalsNamed task_name (killNamed task_name) (some entries) scan := by
  have same := (recorded_named_iff task_name word _ entries).mpr ⟨sound.fresh, sound.plain⟩
  have found := found_recorded task_name entries scan sound.fits
  rw [same] at found
  obtain ⟨plist, recorded, counted, held⟩ :=
    record_all_pids (named task_name entries) { scan.plist with cnt := 0 }
      (by simpa using sound.few) sound.numbered
  rw [recorded] at found
  exact ⟨plist, found, by simpa using counted, by simpa [Pidlist.pids] using held, kill_named _ _ _ _ found⟩

/-- Where the right processes are signalled, no other entry was recorded: as many were
recorded as have the name, and those with the name are among them. -/
theorem signals_sound (task_name : List Byte) (word : OneWord task_name) (entries : List Entry)
    (scan : Scan) (signals : SignalsNamed task_name (killNamed task_name) (some entries) scan) :
    Sound task_name (bufferString scan.cur_task_name) entries := by
  obtain ⟨plist, found, counted, held, -⟩ := signals
  have fits := found_inside task_name entries scan plist found
  rw [found_recorded task_name entries scan fits] at found
  obtain ⟨total, few⟩ := record_all_counts _ _ plist (Nat.zero_le 32) found
  rw [Option.getD_some] at counted held
  have most := named_recorded task_name word (bufferString scan.cur_task_name) entries
  have same := most.eq_of_length (by simpa using counted.symm.trans total)
  obtain ⟨fresh, plain⟩ := (recorded_named_iff task_name word _ entries).mp same.symm
  refine ⟨fits, ?_, by omega, fresh, plain⟩
  intro entry inside unnumbered
  have listed : none ∈ plist.pids.map some := by
    rw [held]
    exact List.mem_map.mpr ⟨entry, inside, unnumbered⟩
  simp at listed

/-- The names that the functions look for are words. -/
theorem daemon_one_word (daemon : List Byte × (Option (List Entry) → Scan → Except Undefined (List Int)))
    (known : daemon ∈ daemons) : OneWord daemon.1 ∧ daemon.2 = killNamed daemon.1 := by
  simp only [daemons, List.mem_cons, List.not_mem_nil, or_false] at known
  obtain rfl | rfl | rfl | rfl := known
  all_goals exact ⟨⟨by decide, by decide, by decide, by decide⟩, rfl⟩

/-- Each of the functions signals the processes of its name, each once and no others,
exactly for the sound listings. -/
theorem daemons_killed_iff (daemon : List Byte × (Option (List Entry) → Scan → Except Undefined (List Int)))
    (known : daemon ∈ daemons) (dir : Option (List Entry)) (scan : Scan) :
    SignalsNamed daemon.1 daemon.2 dir scan ↔
      Sound daemon.1 (bufferString scan.cur_task_name) (dir.getD []) := by
  obtain ⟨word, function⟩ := daemon_one_word daemon known
  rw [function]
  cases dir with
  | none => exact ⟨signals_sound daemon.1 word [] scan, sound_signals daemon.1 word [] scan⟩
  | some entries =>
    exact ⟨signals_sound daemon.1 word entries scan, sound_signals daemon.1 word entries scan⟩

/-- The directory of a process. -/
def process (d_name name : List Char) : Entry :=
  ⟨text d_name, .DT_DIR, some (text ['N', 'a', 'm', 'e', ':', '\t'] ++ text name ++ text ['\n'])⟩

/-- Locals that hold zeros. -/
def clear : Scan := ⟨Block.uniform 50 0, fun _ => 0, 0⟩

def twoClients : List Entry :=
  [⟨text ['.'], .DT_DIR, none⟩, process ['1'] ['i', 'n', 'i', 't'],
    process ['1', '2'] ['u', 'd', 'h', 'c', 'p', 'c'], ⟨text ['t', 't', 'y'], .DT_DIR, none⟩,
    process ['3', '0', '7'] ['u', 'd', 'h', 'c', 'p', 'c']]

/-- Two clients among other processes are signalled, and no other. -/
theorem two_clients_killed :
    killdhcpc (some twoClients) clear = .ok [12, 307] ∧
      SignalsNamed udhcpc killdhcpc (some twoClients) clear := by
  refine ⟨rfl, (daemons_killed_iff (udhcpc, killdhcpc) ?_ (some twoClients) clear).mpr ?_⟩
  · exact List.mem_cons_self
  · exact ⟨by decide, by decide, by decide, by decide, by decide⟩

/-- A process without a name comes behind a client. -/
def namelessListing : List Entry :=
  [process ['1', '2'] ['u', 'd', 'h', 'c', 'p', 'c'], process ['1', '3'] []]

/-- A process whose name only begins with that of a client. -/
def helperListing : List Entry :=
  [process ['1', '2'] ['u', 'd', 'h', 'c', 'p', 'c', ' ', 'h', 'e', 'l', 'p', 'e', 'r']]

/-- The nameless process is killed with the client, and so is the helper without one; and a
thirty-third client is recorded outside the array. -/
theorem nameless_killed :
    killdhcpc (some namelessListing) clear = .ok [12, 13] ∧
      (named udhcpc namelessListing).map Entry.pid = [some 12] ∧
      ¬ SignalsNamed udhcpc killdhcpc (some namelessListing) clear ∧
      (killdhcpc (some helperListing) clear = .ok [12] ∧ named udhcpc helperListing = []) ∧
      killdhcpc (some (List.replicate 33 (process ['1', '2'] ['u', 'd', 'h', 'c', 'p', 'c']))) clear =
        .error .outOfBounds := by
  have killed : killdhcpc (some namelessListing) clear = .ok [12, 13] := rfl
  have client : (named udhcpc namelessListing).map Entry.pid = [some 12] := by decide
  refine ⟨killed, client, ?_, ⟨rfl, by decide⟩, rfl⟩
  rintro ⟨plist, -, -, held, signalled⟩
  rw [Option.getD_some, client, ← Except.ok.inj (killed.symm.trans signalled)] at held
  exact absurd held (by decide)

end IotCamera.Wifi
