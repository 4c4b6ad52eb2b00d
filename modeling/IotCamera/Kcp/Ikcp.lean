import IotCamera.Kcp.Receive

/-!
# A KCP session with both of its sides

The whole of `ikcp.c`: messages are cut into segments and numbered, segments are kept and
sent again until they are acknowledged, and what arrives is acknowledged, put in order and
put together. The receiving side is the one of `Receive`; here it is a part of the control
block, beside what the sending side needs.

`ikcp_flush` writes packets one behind the other into its buffer and gives the buffer to
the output function before it would have more than `mtu` bytes. The datagrams that it gives
away are its result. The buffer itself has as many bytes as `ikcp_create` and `ikcp_setmtu`
ask for, and `withinBuffer` says whether a call has kept to it. Memory is not short. Logging
is left out, and so are the fields `ts_recent` and `ts_lastack`, which nothing reads, and the
growing of the array of acknowledgements, which is a list.
-/

namespace IotCamera.Kcp.Ikcp

open Memory
open Receive (IKCP_CMD_PUSH IKCP_CMD_ACK IKCP_CMD_WASK IKCP_CMD_WINS IKCP_WND_RCV IKCP_OVERHEAD
  imax itimediff ikcpDecode32u)

def IKCP_RTO_NDL : Word := 30
def IKCP_RTO_MIN : Word := 100
def IKCP_RTO_DEF : Word := 200
def IKCP_RTO_MAX : Word := 60000
def IKCP_ASK_SEND : Word := 1
def IKCP_ASK_TELL : Word := 2
def IKCP_WND_SND : Word := 32
def IKCP_MTU_DEF : Word := 1400
def IKCP_INTERVAL : Word := 100
def IKCP_DEADLINK : Word := 20
def IKCP_THRESH_INIT : Word := 2
def IKCP_THRESH_MIN : Word := 2
def IKCP_PROBE_INIT : Word := 7000
def IKCP_PROBE_LIMIT : Word := 120000

def imin (a b : Word) : Word := if a ≤ b then a else b

def ibound (lower middle upper : Word) : Word := imin (imax lower middle) upper

/-- A segment in `snd_queue`: a part of a message, and how many parts come behind it. The
other members of `IKCPSEG` are not set before it is numbered. -/
structure Fragment where
  frg : Word
  data : List Byte
  deriving DecidableEq, Repr

/-- `IKCPSEG`, with the length of its data in the data. -/
structure Segment where
  conv : Word
  cmd : Word
  frg : Word
  wnd : Word
  ts : Word
  sn : Word
  una : Word
  data : List Byte
  resendts : Word
  rto : Word
  fastack : Word
  xmit : Word
  deriving DecidableEq, Repr

/-- `IKCPCB`. The members of type `int` are words whose sign is asked for where it
matters. -/
structure Ikcpcb extends Receive.Ikcpcb where
  mtu : Word
  mss : Word
  state : Word
  snd_una : Word
  snd_nxt : Word
  ssthresh : Word
  rx_rttval : Word
  rx_srtt : Word
  rx_rto : Word
  rx_minrto : Word
  snd_wnd : Word
  rmt_wnd : Word
  cwnd : Word
  probe : Word
  current : Word
  interval : Word
  ts_flush : Word
  xmit : Word
  nsnd_buf : Word
  nsnd_que : Word
  nodelay : Word
  updated : Word
  ts_probe : Word
  probe_wait : Word
  dead_link : Word
  incr : Word
  snd_queue : List Fragment
  snd_buf : List Segment
  acklist : List (Word × Word)
  fastresend : Word
  nocwnd : Word
  stream : Word

def ikcpCreate (conv : Word) : Ikcpcb :=
  { Receive.ikcpCreate conv with
    snd_una := 0
    snd_nxt := 0
    ts_probe := 0
    probe_wait := 0
    snd_wnd := IKCP_WND_SND
    rmt_wnd := IKCP_WND_RCV
    cwnd := 0
    incr := 0
    probe := 0
    mtu := IKCP_MTU_DEF
    mss := IKCP_MTU_DEF - BitVec.ofNat 32 IKCP_OVERHEAD
    stream := 0
    snd_queue := []
    snd_buf := []
    nsnd_buf := 0
    nsnd_que := 0
    state := 0
    acklist := []
    rx_srtt := 0
    rx_rttval := 0
    rx_rto := IKCP_RTO_DEF
    rx_minrto := IKCP_RTO_MIN
    current := 0
    interval := IKCP_INTERVAL
    ts_flush := IKCP_INTERVAL
    nodelay := 0
    updated := 0
    ssthresh := IKCP_THRESH_INIT
    fastresend := 0
    nocwnd := 0
    xmit := 0
    dead_link := IKCP_DEADLINK }

/-! ## Settings -/

def ikcpSetmtu (kcp : Ikcpcb) (mtu : Int) : Ikcpcb × Int :=
  if mtu < 50 ∨ mtu < IKCP_OVERHEAD then (kcp, -1)
  else
    let mtu := BitVec.ofInt 32 mtu
    ({ kcp with mtu := mtu, mss := mtu - BitVec.ofNat 32 IKCP_OVERHEAD }, 0)

/-- An interval between 10 and 5000 milliseconds. -/
def boundInterval (interval : Int) : Word :=
  BitVec.ofInt 32 (if 5000 < interval then 5000 else if interval < 10 then 10 else interval)

def ikcpInterval (kcp : Ikcpcb) (interval : Int) : Ikcpcb :=
  { kcp with interval := boundInterval interval }

def ikcpNodelay (kcp : Ikcpcb) (nodelay interval resend nc : Int) : Ikcpcb :=
  let kcp :=
    if 0 ≤ nodelay then
      { kcp with
        nodelay := BitVec.ofInt 32 nodelay
        rx_minrto := if nodelay ≠ 0 then IKCP_RTO_NDL else IKCP_RTO_MIN }
    else kcp
  let kcp := if 0 ≤ interval then ikcpInterval kcp interval else kcp
  let kcp := if 0 ≤ resend then { kcp with fastresend := BitVec.ofInt 32 resend } else kcp
  if 0 ≤ nc then { kcp with nocwnd := BitVec.ofInt 32 nc } else kcp

def ikcpWndsize (kcp : Ikcpcb) (sndwnd rcvwnd : Int) : Ikcpcb :=
  let kcp := if 0 < sndwnd then { kcp with snd_wnd := BitVec.ofInt 32 sndwnd } else kcp
  { kcp with toIkcpcb := Receive.ikcpWndsize kcp.toIkcpcb rcvwnd }

/-! ## Sending -/

/-- Cut a message into a number of parts. In stream mode parts are not counted. -/
def cutMessage (mss : Nat) (stream : Word) : Nat → List Byte → List Fragment
  | 0, _ => []
  | left + 1, buffer =>
    ⟨if stream = 0 then BitVec.ofNat 32 left else 0, buffer.take mss⟩ ::
      cutMessage mss stream left (buffer.drop mss)

/-- The number of parts of a message. -/
def partCount (mss len : Nat) : Nat := if len ≤ mss then 1 else (len + mss - 1) / mss

/-- In stream mode the last segment that waits is filled first. -/
def fillLast (kcp : Ikcpcb) (buffer : List Byte) : Ikcpcb × List Byte :=
  match kcp.snd_queue.getLast? with
  | none => (kcp, buffer)
  | some old =>
    if old.data.length < kcp.mss.toNat then
      let extend := min buffer.length (kcp.mss.toNat - old.data.length)
      ({ kcp with snd_queue := kcp.snd_queue.dropLast ++ [⟨0, old.data ++ buffer.take extend⟩] },
        buffer.drop extend)
    else (kcp, buffer)

/-- Put the parts of a message into the queue, unless they are too many. -/
def queueParts (kcp : Ikcpcb) (buffer : List Byte) : Ikcpcb × Int :=
  let count := partCount kcp.mss.toNat buffer.length
  if IKCP_WND_RCV.toNat ≤ count then (kcp, -2)
  else
    let parts := cutMessage kcp.mss.toNat kcp.stream (if count = 0 then 1 else count) buffer
    ({ kcp with
        snd_queue := kcp.snd_queue ++ parts
        nsnd_que := kcp.nsnd_que + BitVec.ofNat 32 parts.length }, 0)

/-- `ikcp_send` of a whole buffer. A length that is no `int` is a negative one. -/
def ikcpSend (kcp : Ikcpcb) (buffer : List Byte) : Ikcpcb × Int :=
  if 2 ^ 31 ≤ buffer.length then (kcp, -1)
  else if kcp.stream ≠ 0 then
    let (kcp, rest) := fillLast kcp buffer
    if rest = [] then (kcp, 0) else queueParts kcp rest
  else queueParts kcp buffer

/-! ## Acknowledgements -/

def ikcpUpdateAck (kcp : Ikcpcb) (rtt : Word) : Ikcpcb :=
  let kcp :=
    if kcp.rx_srtt = 0 then { kcp with rx_srtt := rtt, rx_rttval := rtt.sdiv 2 }
    else
      let delta := rtt - kcp.rx_srtt
      let delta := if delta.toInt < 0 then -delta else delta
      let srtt := (7 * kcp.rx_srtt + rtt).sdiv 8
      { kcp with
        rx_rttval := (3 * kcp.rx_rttval + delta).sdiv 4
        rx_srtt := if srtt.toInt < 1 then 1 else srtt }
  let rto := kcp.rx_srtt + imax kcp.interval (4 * kcp.rx_rttval)
  { kcp with rx_rto := ibound kcp.rx_minrto rto IKCP_RTO_MAX }

def ikcpShrinkBuf (kcp : Ikcpcb) : Ikcpcb :=
  match kcp.snd_buf with
  | seg :: _ => { kcp with snd_una := seg.sn }
  | [] => { kcp with snd_una := kcp.snd_nxt }

/-- Take the segment with a number out of a buffer that is in order. -/
def removeNumber (sn : Word) : List Segment → Option (List Segment)
  | [] => none
  | seg :: rest =>
    if sn = seg.sn then some rest
    else if itimediff sn seg.sn < 0 then none
    else (removeNumber sn rest).map (seg :: ·)

def ikcpParseAck (kcp : Ikcpcb) (sn : Word) : Ikcpcb :=
  if itimediff sn kcp.snd_una < 0 ∨ 0 ≤ itimediff sn kcp.snd_nxt then kcp
  else
    match removeNumber sn kcp.snd_buf with
    | some rest => { kcp with snd_buf := rest, nsnd_buf := kcp.nsnd_buf - 1 }
    | none => kcp

/-- Drop segments from the front while their numbers are below one. -/
def dropBelow (una : Word) (nsnd_buf : Word) : List Segment → List Segment × Word
  | [] => ([], nsnd_buf)
  | seg :: rest =>
    if 0 < itimediff una seg.sn then dropBelow una (nsnd_buf - 1) rest else (seg :: rest, nsnd_buf)

def ikcpParseUna (kcp : Ikcpcb) (una : Word) : Ikcpcb :=
  let (snd_buf, nsnd_buf) := dropBelow una kcp.nsnd_buf kcp.snd_buf
  { kcp with snd_buf := snd_buf, nsnd_buf := nsnd_buf }

/-- Count the segments that were passed over by an acknowledgement. -/
def countFastack (sn : Word) : List Segment → List Segment
  | [] => []
  | seg :: rest =>
    if itimediff sn seg.sn < 0 then seg :: rest
    else (if sn ≠ seg.sn then { seg with fastack := seg.fastack + 1 } else seg) :: countFastack sn rest

def ikcpParseFastack (kcp : Ikcpcb) (sn : Word) : Ikcpcb :=
  if itimediff sn kcp.snd_una < 0 ∨ 0 ≤ itimediff sn kcp.snd_nxt then kcp
  else { kcp with snd_buf := countFastack sn kcp.snd_buf }

def ikcpAckPush (kcp : Ikcpcb) (sn ts : Word) : Ikcpcb := { kcp with acklist := kcp.acklist ++ [(sn, ts)] }

/-! ## Datagrams that arrive -/

/-- A number of two bytes, the lower first. -/
def ikcpDecode16u (data : List Byte) : BitVec 16 :=
  (data.getD 0 0).setWidth 16 ||| (data.getD 1 0).setWidth 16 <<< 8

/-- A segment with its header, as it is in a datagram. -/
structure Packet where
  conv : Word
  cmd : Byte
  frg : Byte
  wnd : BitVec 16
  ts : Word
  sn : Word
  una : Word
  data : List Byte
  deriving DecidableEq, Repr

/-- The header at the front of some bytes, with as many of the bytes behind it as it says. -/
def decodePacket (data : List Byte) : Packet :=
  { conv := ikcpDecode32u data
    cmd := data.getD 4 0
    frg := data.getD 5 0
    wnd := ikcpDecode16u (data.drop 6)
    ts := ikcpDecode32u (data.drop 8)
    sn := ikcpDecode32u (data.drop 12)
    una := ikcpDecode32u (data.drop 16)
    data := (data.drop IKCP_OVERHEAD).take (ikcpDecode32u (data.drop 20)).toNat }

/-- What `ikcp_input` keeps from one packet of a datagram to the next. -/
structure Reading where
  kcp : Ikcpcb
  flag : Bool
  maxack : Word

/-- The window and the lowest number that the peer still waits for are in every packet. -/
def inputHeader (kcp : Ikcpcb) (packet : Packet) : Ikcpcb :=
  ikcpShrinkBuf (ikcpParseUna { kcp with rmt_wnd := packet.wnd.setWidth 32 } packet.una)

def inputAck (kcp : Ikcpcb) (packet : Packet) : Ikcpcb :=
  let kcp :=
    if 0 ≤ itimediff kcp.current packet.ts then ikcpUpdateAck kcp (kcp.current - packet.ts) else kcp
  ikcpShrinkBuf (ikcpParseAck kcp packet.sn)

def inputPush (kcp : Ikcpcb) (packet : Packet) : Ikcpcb :=
  if itimediff packet.sn (kcp.rcv_nxt + kcp.rcv_wnd) < 0 then
    let kcp := ikcpAckPush kcp packet.sn packet.ts
    if 0 ≤ itimediff packet.sn kcp.rcv_nxt then
      let newseg := ⟨promote packet.frg, packet.sn, packet.data⟩
      { kcp with toIkcpcb := Receive.ikcpParseData kcp.toIkcpcb newseg }
    else kcp
  else kcp

/-- What a packet does whose header was accepted. -/
def inputPacket (reading : Reading) (packet : Packet) : Reading :=
  let kcp := inputHeader reading.kcp packet
  if packet.cmd = IKCP_CMD_ACK then
    let newer := !reading.flag || 0 < itimediff packet.sn reading.maxack
    ⟨inputAck kcp packet, true, if newer then packet.sn else reading.maxack⟩
  else if packet.cmd = IKCP_CMD_PUSH then { reading with kcp := inputPush kcp packet }
  else if packet.cmd = IKCP_CMD_WASK then
    { reading with kcp := { kcp with probe := kcp.probe ||| IKCP_ASK_TELL } }
  else { reading with kcp := kcp }

/-- The loop of `ikcp_input`. Each pass takes at least a header, so there are fewer passes
than bytes. -/
def inputLoop : Nat → Reading → List Byte → Reading × Int
  | 0, reading, _ => (reading, 0)
  | passes + 1, reading, data =>
    if data.length < IKCP_OVERHEAD then (reading, 0)
    else if (decodePacket data).conv ≠ reading.kcp.conv then (reading, -1)
    else
      let cmd := (decodePacket data).cmd
      let len := ikcpDecode32u (data.drop 20)
      let behind := data.drop IKCP_OVERHEAD
      if behind.length < len.toNat ∨ len.toInt < 0 then (reading, -2)
      else if cmd ≠ IKCP_CMD_PUSH ∧ cmd ≠ IKCP_CMD_ACK ∧ cmd ≠ IKCP_CMD_WASK ∧
          cmd ≠ IKCP_CMD_WINS then (reading, -3)
      else inputLoop passes (inputPacket reading (decodePacket data)) (behind.drop len.toNat)

/-- A larger window: by one below the threshold, and above it by parts. -/
def widenWindow (kcp : Ikcpcb) : Ikcpcb :=
  if kcp.cwnd < kcp.ssthresh then { kcp with cwnd := kcp.cwnd + 1, incr := kcp.incr + kcp.mss }
  else
    let incr := if kcp.incr < kcp.mss then kcp.mss else kcp.incr
    let incr := incr + (kcp.mss * kcp.mss / incr + kcp.mss / 16)
    { kcp with
      incr := incr
      cwnd := if (kcp.cwnd + 1) * kcp.mss ≤ incr then kcp.cwnd + 1 else kcp.cwnd }

/-- The window grows, up to the one of the peer, when `snd_una` has moved. -/
def growWindow (kcp : Ikcpcb) (una : Word) : Ikcpcb :=
  if 0 < itimediff kcp.snd_una una ∧ kcp.cwnd < kcp.rmt_wnd then
    let kcp := widenWindow kcp
    if kcp.rmt_wnd < kcp.cwnd then { kcp with cwnd := kcp.rmt_wnd, incr := kcp.rmt_wnd * kcp.mss } else kcp
  else kcp

def ikcpInput (kcp : Ikcpcb) (data : List Byte) : Ikcpcb × Int :=
  if data.length < IKCP_OVERHEAD then (kcp, -1)
  else
    let (reading, answer) := inputLoop data.length ⟨kcp, false, 0⟩ data
    if answer ≠ 0 then (reading.kcp, answer)
    else
      let counted := if reading.flag then ikcpParseFastack reading.kcp reading.maxack else reading.kcp
      (growWindow counted kcp.snd_una, 0)

/-- Take a message of at most `len` bytes. When that makes room in a full queue, the peer
is to be told. -/
def ikcpRecv {size : Nat} (kcp : Ikcpcb) (buffer : Block size) (len : Int) :
    Except Fault (Ikcpcb × Block size × Int) :=
  match Receive.ikcpRecv kcp.toIkcpcb buffer len with
  | .error fault => .error fault
  | .ok (received, buffer, answer) =>
    let after := { kcp with toIkcpcb := received }
    if 0 ≤ answer ∧ kcp.rcv_wnd ≤ kcp.nrcv_que ∧ after.nrcv_que < after.rcv_wnd then
      .ok ({ after with probe := after.probe ||| IKCP_ASK_TELL }, buffer, answer)
    else .ok (after, buffer, answer)

/-! ## Datagrams that are sent -/

def ikcpEncode16u (value : BitVec 16) : List Byte := [value.setWidth 8, (value >>> 8).setWidth 8]

def ikcpEncode32u (value : Word) : List Byte :=
  [low value, low (value >>> 8), low (value >>> 16), low (value >>> 24)]

/-- The header of a segment. -/
def ikcpEncodeSeg (seg : Segment) : List Byte :=
  ikcpEncode32u seg.conv ++ [low seg.cmd, low seg.frg] ++ ikcpEncode16u (seg.wnd.setWidth 16) ++
    ikcpEncode32u seg.ts ++ ikcpEncode32u seg.sn ++ ikcpEncode32u seg.una ++
    ikcpEncode32u (BitVec.ofNat 32 seg.data.length)

/-- The buffer of `ikcp_flush` up to `ptr`, and the datagrams that were given away. -/
structure Output where
  buffer : List Byte
  datagrams : List (List Byte)

/-- `ikcp_output`: there is nothing to send in an empty buffer. -/
def Output.give (output : Output) : Output :=
  if output.buffer = [] then output else ⟨[], output.datagrams ++ [output.buffer]⟩

/-- Write a segment with its data, behind what is in the buffer if there is room. -/
def Output.put (output : Output) (mtu : Word) (seg : Segment) : Output :=
  let output :=
    if mtu.toInt < (output.buffer.length + (IKCP_OVERHEAD + seg.data.length) : Nat) then output.give
    else output
  { output with buffer := output.buffer ++ (ikcpEncodeSeg seg ++ seg.data) }

def ikcpWndUnused (kcp : Ikcpcb) : Word :=
  if kcp.nrcv_que < kcp.rcv_wnd then kcp.rcv_wnd - kcp.nrcv_que else 0

/-- The local segment of `ikcp_flush`, with which everything but data is sent. -/
def ackSegment (kcp : Ikcpcb) : Segment :=
  { conv := kcp.conv
    cmd := promote IKCP_CMD_ACK
    frg := 0
    wnd := ikcpWndUnused kcp
    una := kcp.rcv_nxt
    data := []
    sn := 0
    ts := 0
    resendts := 0
    rto := 0
    fastack := 0
    xmit := 0 }

/-- The time to the next question, half as long again each time. -/
def longerWait (probe_wait : Word) : Word :=
  let wait := if probe_wait < IKCP_PROBE_INIT then IKCP_PROBE_INIT else probe_wait
  let wait := wait + wait / 2
  if IKCP_PROBE_LIMIT < wait then IKCP_PROBE_LIMIT else wait

/-- When the peer has no window, ask for it from time to time. -/
def probeWindow (kcp : Ikcpcb) : Ikcpcb :=
  if kcp.rmt_wnd = 0 then
    if kcp.probe_wait = 0 then
      { kcp with probe_wait := IKCP_PROBE_INIT, ts_probe := kcp.current + IKCP_PROBE_INIT }
    else if 0 ≤ itimediff kcp.current kcp.ts_probe then
      { kcp with
        probe_wait := longerWait kcp.probe_wait
        ts_probe := kcp.current + longerWait kcp.probe_wait
        probe := kcp.probe ||| IKCP_ASK_SEND }
    else kcp
  else { kcp with ts_probe := 0, probe_wait := 0 }

/-- Write an acknowledgement. The local segment keeps its numbers. -/
def putAck (mtu : Word) (state : Segment × Output) (ack : Word × Word) : Segment × Output :=
  let seg := { state.1 with sn := ack.1, ts := ack.2 }
  (seg, state.2.put mtu seg)

/-- Write a command about the window, if it is asked for. -/
def putCommand (mtu asked : Word) (cmd : Byte) (state : Segment × Output) : Segment × Output :=
  if asked ≠ 0 then
    let seg := { state.1 with cmd := promote cmd }
    (seg, state.2.put mtu seg)
  else state

/-- Acknowledgements, and questions and answers about the window. -/
def flushAcks (kcp : Ikcpcb) : Ikcpcb × Output :=
  let acked := kcp.acklist.foldl (putAck kcp.mtu) (ackSegment kcp, ⟨[], []⟩)
  let kcp := probeWindow { kcp with acklist := [] }
  let asked := putCommand kcp.mtu (kcp.probe &&& IKCP_ASK_SEND) IKCP_CMD_WASK acked
  let told := putCommand kcp.mtu (kcp.probe &&& IKCP_ASK_TELL) IKCP_CMD_WINS asked
  ({ kcp with probe := 0 }, told.2)

/-- Number segments of the queue while the window allows it. -/
def numberLoop (kcp : Ikcpcb) (cwnd wnd : Word) : List Fragment → Ikcpcb
  | [] => { kcp with snd_queue := [] }
  | part :: rest =>
    if itimediff kcp.snd_nxt (kcp.snd_una + cwnd) < 0 then
      let newseg : Segment :=
        { conv := kcp.conv
          cmd := promote IKCP_CMD_PUSH
          frg := part.frg
          wnd := wnd
          ts := kcp.current
          sn := kcp.snd_nxt
          una := kcp.rcv_nxt
          data := part.data
          resendts := kcp.current
          rto := kcp.rx_rto
          fastack := 0
          xmit := 0 }
      numberLoop
        { kcp with
          snd_buf := kcp.snd_buf ++ [newseg]
          nsnd_que := kcp.nsnd_que - 1
          nsnd_buf := kcp.nsnd_buf + 1
          snd_nxt := kcp.snd_nxt + 1 } cwnd wnd rest
    else { kcp with snd_queue := part :: rest }

/-- The state of the loop over `snd_buf`: the control block, the segments passed, the
output, how often a segment was sent fast, and whether one was lost. -/
structure Flushing where
  kcp : Ikcpcb
  passed : List Segment
  output : Output
  change : Nat
  lost : Bool

/-- A segment that is to be sent, now with the time at which it will be sent again. -/
def dueSegment (kcp : Ikcpcb) (resent rtomin : Word) (segment : Segment) : Option Segment :=
  if segment.xmit = 0 then
    some { segment with
      xmit := 1
      rto := kcp.rx_rto
      resendts := kcp.current + kcp.rx_rto + rtomin }
  else if 0 ≤ itimediff kcp.current segment.resendts then
    let rto := segment.rto + if kcp.nodelay = 0 then kcp.rx_rto else kcp.rx_rto.sdiv 2
    some { segment with xmit := segment.xmit + 1, rto := rto, resendts := kcp.current + rto }
  else if resent ≤ segment.fastack then
    some { segment with
      xmit := segment.xmit + 1
      fastack := 0
      resendts := kcp.current + segment.rto }
  else none

/-- A pass of the loop over `snd_buf`. -/
def sendSegment (wnd resent rtomin : Word) (flushing : Flushing) (segment : Segment) : Flushing :=
  let kcp := flushing.kcp
  match dueSegment kcp resent rtomin segment with
  | none => { flushing with passed := flushing.passed ++ [segment] }
  | some due =>
    let again := segment.xmit ≠ 0 ∧ 0 ≤ itimediff kcp.current segment.resendts
    let fast := segment.xmit ≠ 0 ∧ ¬ 0 ≤ itimediff kcp.current segment.resendts
    let sent := { due with ts := kcp.current, wnd := wnd, una := kcp.rcv_nxt }
    { kcp :=
        { kcp with
          xmit := if again then kcp.xmit + 1 else kcp.xmit
          state := if kcp.dead_link ≤ sent.xmit then -1 else kcp.state }
      passed := flushing.passed ++ [sent]
      output := flushing.output.put kcp.mtu sent
      change := if fast then flushing.change + 1 else flushing.change
      lost := flushing.lost || decide again }

/-- The window when segments were sent fast. -/
def shrinkFast (kcp : Ikcpcb) (resent : Word) : Ikcpcb :=
  let half := (kcp.snd_nxt - kcp.snd_una) / 2
  let ssthresh := if half < IKCP_THRESH_MIN then IKCP_THRESH_MIN else half
  { kcp with ssthresh := ssthresh, cwnd := ssthresh + resent, incr := (ssthresh + resent) * kcp.mss }

/-- The window when a segment was lost. -/
def shrinkLost (kcp : Ikcpcb) (cwnd : Word) : Ikcpcb :=
  let half := cwnd / 2
  let ssthresh := if half < IKCP_THRESH_MIN then IKCP_THRESH_MIN else half
  { kcp with ssthresh := ssthresh, cwnd := 1, incr := kcp.mss }

/-- The window after a flush. -/
def shrinkWindow (kcp : Ikcpcb) (cwnd resent : Word) (change : Nat) (lost : Bool) : Ikcpcb :=
  let kcp := if change ≠ 0 then shrinkFast kcp resent else kcp
  let kcp := if lost then shrinkLost kcp cwnd else kcp
  if kcp.cwnd < 1 then { kcp with cwnd := 1, incr := kcp.mss } else kcp

/-- The window in which segments are numbered. -/
def sendWindow (kcp : Ikcpcb) : Word :=
  let cwnd := imin kcp.snd_wnd kcp.rmt_wnd
  if kcp.nocwnd = 0 then imin kcp.cwnd cwnd else cwnd

/-- The number of acknowledgements after which a segment is sent fast. -/
def fastLimit (kcp : Ikcpcb) : Word := if 0 < kcp.fastresend.toInt then kcp.fastresend else 0xffffffff

/-- The loop over `snd_buf`. -/
def flushSegments (wnd : Word) (kcp : Ikcpcb) (output : Output) : Flushing :=
  let rtomin := if kcp.nodelay = 0 then kcp.rx_rto.sshiftRight 3 else 0
  kcp.snd_buf.foldl (sendSegment wnd (fastLimit kcp) rtomin) ⟨kcp, [], output, 0, false⟩

def ikcpFlush (kcp : Ikcpcb) : Ikcpcb × List (List Byte) :=
  if kcp.updated = 0 then (kcp, [])
  else
    let wnd := ikcpWndUnused kcp
    let (kcp, output) := flushAcks kcp
    let cwnd := sendWindow kcp
    let kcp := numberLoop kcp cwnd wnd kcp.snd_queue
    let flushing := flushSegments wnd kcp output
    let resent := fastLimit kcp
    let kcp := { flushing.kcp with snd_buf := flushing.passed }
    (shrinkWindow kcp cwnd resent flushing.change flushing.lost, flushing.output.give.datagrams)

def ikcpUpdate (kcp : Ikcpcb) (current : Word) : Ikcpcb × List (List Byte) :=
  let kcp := { kcp with current := current }
  let kcp := if kcp.updated = 0 then { kcp with updated := 1, ts_flush := current } else kcp
  let slap := itimediff current kcp.ts_flush
  let late := 10000 ≤ slap ∨ slap < -10000
  let kcp := if late then { kcp with ts_flush := current } else kcp
  if late ∨ 0 ≤ slap then
    let ts_flush := kcp.ts_flush + kcp.interval
    ikcpFlush
      { kcp with
        ts_flush := if 0 ≤ itimediff current ts_flush then current + kcp.interval else ts_flush }
  else (kcp, [])

/-- The bytes of the buffer of `ikcp_flush`, which `ikcp_create` and `ikcp_setmtu` get. The
sum and the product are of 32 bits. -/
def bufferSize (mtu : Word) : Nat := ((mtu + BitVec.ofNat 32 IKCP_OVERHEAD) * 3).toNat

/-- A flush or an update with the buffer that it writes. All bytes of the buffer are given
away, so what was written beyond its end is at the end of a datagram that is too long. -/
def withinBuffer (kcp : Ikcpcb) (result : Ikcpcb × List (List Byte)) :
    Except Fault (Ikcpcb × List (List Byte)) :=
  if ∀ datagram ∈ result.2, datagram.length ≤ bufferSize kcp.mtu then .ok result
  else .error .outOfBounds

/-- The loop of `ikcp_check` over `snd_buf`: the time to the first segment that is sent
again, unless one is due. -/
def packetTime (current : Word) (tm_packet : Int) : List Segment → Option Int
  | [] => some tm_packet
  | seg :: rest =>
    let diff := itimediff seg.resendts current
    if diff ≤ 0 then none else packetTime current (if diff < tm_packet then diff else tm_packet) rest

/-- When `ikcp_update` should be called next. -/
def ikcpCheck (kcp : Ikcpcb) (current : Word) : Word :=
  if kcp.updated = 0 then current
  else
    let slap := itimediff current kcp.ts_flush
    let ts_flush := if 10000 ≤ slap ∨ slap < -10000 then current else kcp.ts_flush
    if 0 ≤ itimediff current ts_flush then current
    else
      let tm_flush := itimediff ts_flush current
      match packetTime current 0x7fffffff kcp.snd_buf with
      | none => current
      | some tm_packet =>
        let minimal := BitVec.ofInt 32 (if tm_packet < tm_flush then tm_packet else tm_flush)
        current + if kcp.interval ≤ minimal then kcp.interval else minimal

end IotCamera.Kcp.Ikcp
