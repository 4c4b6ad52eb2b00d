import IotCamera.Base.Runs

/-!
# The RTMP pusher

`CRtmpPush`: a loop that connects to a server and keeps the connection, control
calls that ask it to start and to stop, and calls of the media threads that write
frames while it is connected. The connection is a handle of the RTMP library,
which the pusher creates, uses and destroys.

The library is seen through the calls made on it, kept in order. Handles are
numbered as they are created. What a call returns is not known here: the outcome
of each call is an argument, and every result holds for all outcomes.

Here each iteration of the loop, each control call and each write is one step.
-/

namespace IotCamera.Rtmp

/-- The enumeration of the class. `status` takes the first four values and
`run_status` two of the others. -/
inductive Enum where
  | connInit
  | connected
  | connErr
  | stopPush
  | runStatusStart
  | runStatusExit
  | runStatusEnd
  deriving DecidableEq, Repr

/-- A media frame with its timestamp. -/
structure Frame where
  dat : List (BitVec 8)
  pts : Int
  deriving DecidableEq, Repr

/-- A call on the library with its handle; `create` with the handle it returned. -/
inductive SrsCall where
  | create (rtmp : Option Nat)
  | setTimeout (rtmp : Option Nat) (recvTimeoutMs sendTimeoutMs : Nat)
  | handshake (rtmp : Option Nat)
  | connectApp (rtmp : Option Nat)
  | publishStream (rtmp : Option Nat)
  | destroy (rtmp : Option Nat)
  | h264WriteRawFrames (rtmp : Option Nat) (frame : Frame)
  | adtsAacWriteRawFrame (rtmp : Option Nat) (frame : Frame)
  deriving DecidableEq, Repr

/-- The handles that were created, in order. -/
def created (calls : List SrsCall) : List Nat :=
  calls.filterMap fun
    | .create rtmp => rtmp
    | _ => none

/-- The handles that were destroyed, in order. -/
def destroyed (calls : List SrsCall) : List Nat :=
  calls.filterMap fun
    | .destroy rtmp => rtmp
    | _ => none

/-- How often a connection was opened, whether or not the library had a handle. -/
def openings (calls : List SrsCall) : Nat :=
  calls.countP fun
    | .create _ => true
    | _ => false

structure CRtmpPush where
  rtmp : Option Nat
  status : Enum
  runStatus : Enum
  calls : List SrsCall
  deriving DecidableEq, Repr

/-- The constructor. -/
def CRtmpPush.new : CRtmpPush := ⟨none, .stopPush, .runStatusExit, []⟩

/-- What the calls of one connection attempt return. -/
structure Outcomes where
  create : Bool
  handshake : Int
  connectApp : Int
  publishStream : Int
  deriving DecidableEq, Repr

def timeout : Nat := 5000

namespace CRtmpPush

def call (push : CRtmpPush) (call : SrsCall) : CRtmpPush := { push with calls := push.calls ++ [call] }

/-- `_rtmp = srs_rtmp_create(rtmp_url)`. -/
def create (push : CRtmpPush) (succeeds : Bool) : CRtmpPush :=
  let rtmp := if succeeds then some (created push.calls).length else none
  { push.call (.create rtmp) with rtmp := rtmp }

def openUrl (push : CRtmpPush) (outcomes : Outcomes) : CRtmpPush × Int :=
  let push := push.create outcomes.create
  if push.rtmp = none then (push, -1)
  else
    let push := push.call (.setTimeout push.rtmp timeout timeout)
    let push := push.call (.handshake push.rtmp)
    if outcomes.handshake ≠ 0 then (push, outcomes.handshake)
    else
      let push := push.call (.connectApp push.rtmp)
      if outcomes.connectApp ≠ 0 then (push, outcomes.connectApp)
      else (push.call (.publishStream push.rtmp), outcomes.publishStream)

def cleanup (push : CRtmpPush) : CRtmpPush :=
  if push.rtmp ≠ none then { push.call (.destroy push.rtmp) with rtmp := none } else push

def init (push : CRtmpPush) (outcomes : Outcomes) : CRtmpPush × Int := push.openUrl outcomes

def deinit (push : CRtmpPush) : CRtmpPush := push.cleanup

/-- A stop request; nothing happens while the pusher is stopped. -/
def stopPush (push : CRtmpPush) : CRtmpPush :=
  match push.status with
  | .stopPush => push
  | _ => { push with runStatus := .runStatusExit }

def startPush (push : CRtmpPush) : CRtmpPush := { push with runStatus := .runStatusStart }

/-- The test that ends three cases of the loop, also spelled out as
`CHECK_RUNSTATUS`. -/
def checkRunstatus (push : CRtmpPush) : CRtmpPush :=
  if push.runStatus = .runStatusExit then { push.deinit with status := .stopPush } else push

/-- One iteration of `run`. -/
def runIteration (push : CRtmpPush) (outcomes : Outcomes) : CRtmpPush :=
  match push.status with
  | .stopPush => if push.runStatus = .runStatusStart then { push with status := .connInit } else push
  | .connInit =>
    let (push, ret) := push.init outcomes
    if ret = 0 then { push with status := .connected }.checkRunstatus
    else push.deinit.checkRunstatus
  | .connected => push.checkRunstatus
  | .connErr => { push.deinit with status := .connInit }.checkRunstatus
  | _ => push

/-- A write while connected: the library is called, and its answer 1009 is a lost
connection. -/
def writeRawData (push : CRtmpPush) (call : SrsCall) (wret : Int) : CRtmpPush :=
  if push.status = .connected then
    let push := push.call call
    if wret = 1009 then { push with status := .connErr } else push
  else push

def writeH264RawData (push : CRtmpPush) (frame : Frame) (wret : Int) : CRtmpPush :=
  push.writeRawData (.h264WriteRawFrames push.rtmp frame) wret

def writeAACRawData (push : CRtmpPush) (frame : Frame) (wret : Int) : CRtmpPush :=
  push.writeRawData (.adtsAacWriteRawFrame push.rtmp frame) wret

end CRtmpPush

/-- A step of the control thread, the loop, or a media thread. -/
inductive Action where
  | startPush
  | stopPush
  | iteration (outcomes : Outcomes)
  | writeH264RawData (frame : Frame) (wret : Int)
  | writeAACRawData (frame : Frame) (wret : Int)
  deriving DecidableEq, Repr

def step (push : CRtmpPush) : Action → CRtmpPush
  | .startPush => push.startPush
  | .stopPush => push.stopPush
  | .iteration outcomes => push.runIteration outcomes
  | .writeH264RawData frame wret => push.writeH264RawData frame wret
  | .writeAACRawData frame wret => push.writeAACRawData frame wret

/-- The pusher after a run from its construction. -/
def after (actions : List Action) : CRtmpPush := actions.foldl step CRtmpPush.new

/-- One more action is a step from where the others led. -/
theorem after_snoc (actions : List Action) (action : Action) :
    after (actions ++ [action]) = step (after actions) action := by
  simp only [after, List.foldl_append, List.foldl_cons, List.foldl_nil]

end IotCamera.Rtmp
