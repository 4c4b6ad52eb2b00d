import Mathlib.Logic.Function.Basic
import IotCamera.Base.Memory

/-!
# Finding processes by their names

`wifimgr.cpp`: `getPidByName` goes through the entries of `/proc`. For each directory it
reads the first line of the status file and takes the second word of the line for the name
of the process; when that is the name it looks for, it records the number that the entry is
called by. Four functions kill what was recorded.

The local variables are not initialised, so what their memory holds at the call is an
argument. What `readdir`, `fopen` and `fgets` deliver is given by the entries: their names,
their types and the contents of their status files.
-/

namespace IotCamera.Wifi

open Memory

/-- What C leaves undefined: an access outside an array, and a number in `sscanf` that an
`int` cannot hold. -/
inductive Undefined where
  | outOfBounds
  | unrepresentable
  deriving DecidableEq, Repr

def text (characters : List Char) : List Byte :=
  characters.map fun character => BitVec.ofNat 8 character.toNat

def isspace (byte : Byte) : Bool := byte = 0x20 || (0x09 ≤ byte && byte ≤ 0x0D)

def isdigit (byte : Byte) : Bool := 0x30 ≤ byte && byte ≤ 0x39

/-- The string at the start of some bytes. -/
def cString (bytes : List Byte) : List Byte := bytes.takeWhile (· ≠ 0)

/-- The string that a buffer holds. -/
def bufferString {size : Nat} (buffer : Block size) : List Byte := cString (buffer.bytes size)

/-- Write a string with its terminator to the start of a buffer. -/
def writeString {size : Nat} (buffer : Block size) (string : List Byte) :
    Except Undefined (Block size) :=
  if string.length + 1 ≤ size then .ok (buffer.store 0 (string ++ [0])) else .error .outOfBounds

/-- `fgets` with room for `size` bytes: the first line, or as much of it as there is room
for beside the terminator; nothing when the file is empty. -/
def fgets (size : Nat) (file : List Byte) : Option (List Byte) :=
  if file = [] then none
  else
    let most := file.take (size - 1)
    let line := most.takeWhile (· ≠ 0x0A)
    some (line ++ (most.drop line.length).take 1)

/-- A word and what is behind it. -/
def scanWord (string : List Byte) : List Byte × List Byte :=
  let start := string.dropWhile isspace
  (start.takeWhile (!isspace ·), start.dropWhile (!isspace ·))

/-- `sscanf` with `"%*s %s"`: the word that is stored, if it comes to that. -/
def scanSecondWord (string : List Byte) : Option (List Byte) :=
  let (first, rest) := scanWord string
  if first = [] then none
  else
    let (second, _) := scanWord rest
    if second = [] then none else some second

/-- The number that digits stand for. -/
def digitsValue (digits : List Byte) : Nat :=
  digits.foldl (fun value digit => 10 * value + (digit.toNat - 0x30)) 0

/-- `sscanf` with `"%d"`: the number that is stored, if it comes to that. -/
def scanInt (string : List Byte) : Option Int :=
  let start := string.dropWhile isspace
  let signed := start.head? = some 0x2B ∨ start.head? = some 0x2D
  let digits := (if signed then start.tail else start).takeWhile isdigit
  if digits = [] then none
  else some (if start.head? = some 0x2D then -digitsValue digits else digitsValue digits)

def BUF_SIZE : Nat := 1024

/-- `struct pidlist`. -/
structure Pidlist where
  pid : Nat → Int
  cnt : Nat

inductive DType where
  | DT_DIR
  | other
  deriving DecidableEq, Repr

/-- An entry of `/proc`, with the contents of its status file if that can be opened. -/
structure Entry where
  d_name : List Byte
  d_type : DType
  status : Option (List Byte)
  deriving DecidableEq, Repr

/-- What the loop keeps from one entry to the next. -/
structure Scan where
  cur_task_name : Block 50
  plist : Pidlist

def filepathOf (d_name : List Byte) : List Byte :=
  text ['/', 'p', 'r', 'o', 'c', '/'] ++ d_name ++ text ['/', 's', 't', 'a', 't', 'u', 's']

/-- Entries that the loop passes over. -/
def Entry.skipped (entry : Entry) : Bool :=
  entry.d_name = text ['.'] || entry.d_name = text ['.', '.'] || entry.d_type ≠ .DT_DIR

/-- Record the number that an entry is called by. When there is none, the cell keeps what it
holds, and is counted. The cell is read again by the print behind it. -/
def record (plist : Pidlist) (d_name : List Byte) : Except Undefined Pidlist :=
  if plist.cnt < 32 then
    match scanInt d_name with
    | none => .ok { plist with cnt := plist.cnt + 1 }
    | some number =>
      if -2 ^ 31 ≤ number ∧ number < 2 ^ 31 then
        .ok ⟨Function.update plist.pid plist.cnt number, plist.cnt + 1⟩
      else .error .unrepresentable
  else .error .outOfBounds

/-- The second word of a line goes to the buffer for the name. Without one the buffer keeps
what it holds, and that goes unnoticed. -/
def takeName (cur_task_name : Block 50) (buf : List Byte) : Except Undefined (Block 50) :=
  match scanSecondWord (cString buf) with
  | none => .ok cur_task_name
  | some word => writeString cur_task_name word

/-- What is done with a line that was read. The buffer is longer than any task name, so that
`strcmp` stays inside it. -/
def scanLine (task_name : List Byte) (scan : Scan) (d_name buf : List Byte) :
    Except Undefined Scan := do
  let cur_task_name ← takeName scan.cur_task_name buf
  if bufferString cur_task_name = task_name then
    let plist ← record scan.plist d_name
    .ok ⟨cur_task_name, plist⟩
  else .ok ⟨cur_task_name, scan.plist⟩

/-- The body of the loop. -/
def scanEntry (task_name : List Byte) (scan : Scan) (entry : Entry) : Except Undefined Scan :=
  if entry.skipped then .ok scan
  else do
    let _ ← writeString (Block.uniform 50 0) (filepathOf entry.d_name)
    match entry.status.bind (fgets (BUF_SIZE - 1)) with
    | none => .ok scan
    | some buf => scanLine task_name scan entry.d_name buf

/-- `getPidByName` on what `opendir` opens, if it does. -/
def getPidByName (task_name : List Byte) (dir : Option (List Entry)) (scan : Scan) :
    Except Undefined Pidlist :=
  let scan := { scan with plist := { scan.plist with cnt := 0 } }
  match dir with
  | none => .ok scan.plist
  | some entries => (entries.foldlM (scanEntry task_name) scan).map Scan.plist

/-- The numbers that a list holds. -/
def Pidlist.pids (plist : Pidlist) : List Int := (List.range plist.cnt).map plist.pid

/-- Find processes, and signal each number that was recorded. -/
def killNamed (task_name : List Byte) (dir : Option (List Entry)) (scan : Scan) :
    Except Undefined (List Int) :=
  (getPidByName task_name dir scan).map Pidlist.pids

def udhcpc : List Byte := text ['u', 'd', 'h', 'c', 'p', 'c']
def udhcpd : List Byte := text ['u', 'd', 'h', 'c', 'p', 'd']
def wpa_supplicant : List Byte :=
  text ['w', 'p', 'a', '_', 's', 'u', 'p', 'p', 'l', 'i', 'c', 'a', 'n', 't']
def hostapd : List Byte := text ['h', 'o', 's', 't', 'a', 'p', 'd']

def killdhcpc : Option (List Entry) → Scan → Except Undefined (List Int) := killNamed udhcpc
def killdhcpd : Option (List Entry) → Scan → Except Undefined (List Int) := killNamed udhcpd
def killwpasupp : Option (List Entry) → Scan → Except Undefined (List Int) :=
  killNamed wpa_supplicant
def killhostapd : Option (List Entry) → Scan → Except Undefined (List Int) := killNamed hostapd

end IotCamera.Wifi
