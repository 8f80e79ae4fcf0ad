import KkLicode.Ikcp.Segment

/-! `ikcp.c`: the control block of one end of a KCP conversation. What a call gives
to `output` is a list of datagrams. The queues are lists, the list of
acknowledgements grows without bound as in the source. The values that `malloc`
leaves in a new segment are zeros here; they are written before they are read.
Signed values for the round trip time are integers, and `long` has 64 bits. -/

namespace KkLicode.Ikcp

/-- `IKCPCB`. -/
structure Ikcpcb where
  conv : UInt32
  mtu : UInt32 := IKCP_MTU_DEF
  mss : UInt32 := IKCP_MTU_DEF - .ofNat IKCP_OVERHEAD
  state : UInt32 := 0
  sndUna : UInt32 := 0
  sndNxt : UInt32 := 0
  rcvNxt : UInt32 := 0
  ssthresh : UInt32 := IKCP_THRESH_INIT
  rxRttval : ℤ := 0
  rxSrtt : ℤ := 0
  rxRto : UInt32 := IKCP_RTO_DEF
  rxMinrto : UInt32 := IKCP_RTO_MIN
  sndWnd : UInt32 := IKCP_WND_SND
  rcvWnd : UInt32 := IKCP_WND_RCV
  rmtWnd : UInt32 := IKCP_WND_RCV
  cwnd : UInt32 := 0
  probe : UInt32 := 0
  current : UInt32 := 0
  interval : UInt32 := IKCP_INTERVAL
  tsFlush : UInt32 := IKCP_INTERVAL
  xmit : UInt32 := 0
  nrcvBuf : UInt32 := 0
  nsndBuf : UInt32 := 0
  nrcvQue : UInt32 := 0
  nsndQue : UInt32 := 0
  nodelay : UInt32 := 0
  updated : UInt32 := 0
  tsProbe : UInt32 := 0
  probeWait : UInt32 := 0
  deadLink : UInt32 := IKCP_DEADLINK
  incr : UInt32 := 0
  sndQueue : List IkcpSeg := []
  rcvQueue : List IkcpSeg := []
  sndBuf : List IkcpSeg := []
  rcvBuf : List IkcpSeg := []
  acklist : List (UInt32 × UInt32) := []
  fastresend : ℤ := 0
  nocwnd : ℤ := 0
  stream : ℤ := 0
  deriving DecidableEq, Repr

/-- `ikcp_create`. -/
def create (conv : UInt32) : Ikcpcb := { conv := conv }

namespace Ikcpcb

variable (kcp : Ikcpcb)

/-! ### Settings -/

def setmtu (mtu : ℤ) : Ikcpcb × ℤ :=
  if mtu < 50 ∨ mtu < IKCP_OVERHEAD then (kcp, -1)
  else ({ kcp with mtu := .ofInt mtu, mss := .ofInt mtu - .ofNat IKCP_OVERHEAD }, 0)

/-- The interval is kept between 10 and 5000. -/
def boundInterval (interval : ℤ) : UInt32 :=
  .ofInt (if interval > 5000 then 5000 else if interval < 10 then 10 else interval)

/-- `ikcp_nodelay`, in which a negative value leaves a setting as it is. -/
def setNodelay (nodelay interval resend nc : ℤ) : Ikcpcb :=
  let kcp := if nodelay ≥ 0 then
      { kcp with nodelay := .ofInt nodelay
                 rxMinrto := if nodelay ≠ 0 then IKCP_RTO_NDL else IKCP_RTO_MIN }
    else kcp
  let kcp := if interval ≥ 0 then { kcp with interval := boundInterval interval } else kcp
  let kcp := if resend ≥ 0 then { kcp with fastresend := resend } else kcp
  if nc ≥ 0 then { kcp with nocwnd := nc } else kcp

def setSndWnd (sndwnd : ℤ) : Ikcpcb := if sndwnd > 0 then { kcp with sndWnd := .ofInt sndwnd } else kcp

def setRcvWnd (rcvwnd : ℤ) : Ikcpcb := if rcvwnd > 0 then { kcp with rcvWnd := .ofInt rcvwnd } else kcp

/-- `ikcp_wndsize`. -/
def wndsize (sndwnd rcvwnd : ℤ) : Ikcpcb := (kcp.setSndWnd sndwnd).setRcvWnd rcvwnd

/-- The control block that `CKKkcp::CreateKcp` makes. -/
def createKcp (conv : UInt32) (mtu : UInt16) : Ikcpcb :=
  { ((((create conv).setNodelay 1 5 2 1).setmtu (mtu.toNat - 1)).1) with rxMinrto := 10 }

/-! ### The application -/

/-- The first segment of `rcv_buf` goes to `rcv_queue`. -/
def moveFirst (seg : IkcpSeg) (rest : List IkcpSeg) : Ikcpcb :=
  { kcp with
    rcvBuf := rest, nrcvBuf := kcp.nrcvBuf - 1
    rcvQueue := kcp.rcvQueue ++ [seg], nrcvQue := kcp.nrcvQue + 1
    rcvNxt := kcp.rcvNxt + 1 }

/-- The loop that moves available data from `rcv_buf`, which is the list, to `rcv_queue`. -/
def moveLoop : List IkcpSeg → Ikcpcb → Ikcpcb
  | [], kcp => kcp
  | seg :: rest, kcp =>
    if seg.sn = kcp.rcvNxt ∧ kcp.nrcvQue < kcp.rcvWnd then moveLoop rest (kcp.moveFirst seg rest)
    else kcp

def moveAvailable : Ikcpcb := moveLoop kcp.rcvBuf kcp

/-- The fragments of the first message of the queue, and what is behind them. -/
def mergeFragment : List IkcpSeg → List IkcpSeg × List IkcpSeg
  | [] => ([], [])
  | seg :: queue =>
    if seg.frg = 0 then ([seg], queue)
    else (seg :: (mergeFragment queue).1, (mergeFragment queue).2)

/-- The loop of `ikcp_peeksize`. -/
def peekLength : List IkcpSeg → ℕ
  | [] => 0
  | seg :: queue => seg.data.length + if seg.frg = 0 then 0 else peekLength queue

def peeksize : ℤ :=
  match kcp.rcvQueue with
  | [] => -1
  | seg :: _ =>
    if seg.frg = 0 then seg.data.length
    else if kcp.nrcvQue < seg.frg + 1 then -1
    else peekLength kcp.rcvQueue

def removeMessage : Ikcpcb :=
  { kcp with
    rcvQueue := (mergeFragment kcp.rcvQueue).2
    nrcvQue := kcp.nrcvQue - .ofNat (mergeFragment kcp.rcvQueue).1.length }

/-- The other end is to be told the window. -/
def askTell : Ikcpcb := { kcp with probe := kcp.probe ||| IKCP_ASK_TELL }

/-- Fast recover. -/
def recover (full : Bool) : Ikcpcb :=
  if kcp.nrcvQue < kcp.rcvWnd ∧ full then kcp.askTell else kcp

/-- `ikcp_recv`. With a negative length the message stays in the queue. -/
def recv (len : ℤ) : Ikcpcb × Except ℤ (List UInt8) :=
  if kcp.rcvQueue = [] then (kcp, .error (-1))
  else if kcp.peeksize < 0 then (kcp, .error (-2))
  else if kcp.peeksize > len.natAbs then (kcp, .error (-3))
  else
    ((if len < 0 then kcp else kcp.removeMessage).moveAvailable.recover (kcp.nrcvQue ≥ kcp.rcvWnd),
      .ok ((mergeFragment kcp.rcvQueue).1.flatMap (·.data)))

/-- A segment that waits for its number. -/
def newSeg (frg : UInt32) (data : List UInt8) : IkcpSeg :=
  { conv := 0, cmd := 0, frg := frg, wnd := 0, ts := 0, sn := 0, una := 0, data := data }

/-- The fragments of a message, numbered down to zero where the stream keeps messages apart. -/
def fragments (mss : ℕ) (stream : ℤ) : ℕ → List UInt8 → List IkcpSeg
  | 0, _ => []
  | count + 1, buffer =>
    newSeg (if stream = 0 then .ofNat count else 0) (buffer.take mss) ::
      fragments mss stream count (buffer.drop mss)

/-- In streaming mode the last segment that waits is filled up first. -/
def fillLast (buffer : List UInt8) : Ikcpcb × List UInt8 :=
  match kcp.sndQueue.getLast? with
  | none => (kcp, buffer)
  | some old =>
    if old.data.length < kcp.mss.toNat then
      let extend := min buffer.length (kcp.mss.toNat - old.data.length)
      ({ kcp with sndQueue := kcp.sndQueue.dropLast ++ [newSeg 0 (old.data ++ buffer.take extend)] },
        buffer.drop extend)
    else (kcp, buffer)

/-- How many fragments a message takes. -/
def fragmentCount (mss : ℕ) (len : ℕ) : ℕ := if len ≤ mss then 1 else (len + mss - 1) / mss

/-- What `ikcp_send` does with what did not go into the last segment. -/
def sendFragments (buffer : List UInt8) : Ikcpcb × ℤ :=
  let count := fragmentCount kcp.mss.toNat buffer.length
  if count > 255 then (kcp, -2)
  else
    ({ kcp with
      sndQueue := kcp.sndQueue ++ fragments kcp.mss.toNat kcp.stream count buffer
      nsndQue := kcp.nsndQue + .ofNat count }, 0)

/-- `ikcp_send`. -/
def send (buffer : List UInt8) : Ikcpcb × ℤ :=
  if kcp.stream ≠ 0 then
    let (kcp, buffer) := kcp.fillLast buffer
    if buffer = [] then (kcp, 0) else kcp.sendFragments buffer
  else kcp.sendFragments buffer

/-- `ikcp_waitsnd`. -/
def waitsnd : UInt32 := kcp.nsndBuf + kcp.nsndQue

/-! ### What arrives -/

/-- `ikcp_update_ack`. -/
def updateAck (rtt : ℤ) : Ikcpcb :=
  let kcp := if kcp.rxSrtt = 0 then { kcp with rxSrtt := rtt, rxRttval := rtt.tdiv 2 }
    else
      let srtt := (7 * kcp.rxSrtt + rtt).tdiv 8
      { kcp with rxRttval := (3 * kcp.rxRttval + (rtt - kcp.rxSrtt).natAbs).tdiv 4
                 rxSrtt := if srtt < 1 then 1 else srtt }
  let rto := UInt32.ofInt kcp.rxSrtt + imax kcp.interval (.ofInt (4 * kcp.rxRttval))
  { kcp with rxRto := ibound kcp.rxMinrto rto IKCP_RTO_MAX }

def shrinkBuf : Ikcpcb :=
  { kcp with sndUna := match kcp.sndBuf with | seg :: _ => seg.sn | [] => kcp.sndNxt }

/-- The number lies among those that are sent and not acknowledged. -/
def InFlight (sn : UInt32) : Prop := ¬(itimediff sn kcp.sndUna < 0 ∨ itimediff sn kcp.sndNxt ≥ 0)

instance (sn : UInt32) : Decidable (kcp.InFlight sn) := inferInstanceAs (Decidable (¬_))

/-- The loop of `ikcp_parse_ack`, which ends behind the place of the number. -/
def removeAcked (sn : UInt32) : List IkcpSeg → List IkcpSeg
  | [] => []
  | seg :: rest =>
    if sn = seg.sn then rest
    else if itimediff sn seg.sn < 0 then seg :: rest
    else seg :: removeAcked sn rest

def parseAck (sn : UInt32) : Ikcpcb :=
  if kcp.InFlight sn then
    let rest := removeAcked sn kcp.sndBuf
    { kcp with sndBuf := rest, nsndBuf := kcp.nsndBuf - .ofNat (kcp.sndBuf.length - rest.length) }
  else kcp

def parseUna (una : UInt32) : Ikcpcb :=
  let rest := kcp.sndBuf.dropWhile fun seg => itimediff una seg.sn > 0
  { kcp with sndBuf := rest, nsndBuf := kcp.nsndBuf - .ofNat (kcp.sndBuf.length - rest.length) }

/-- The loop of `ikcp_parse_fastack`. -/
def countFastack (sn : UInt32) : List IkcpSeg → List IkcpSeg
  | [] => []
  | seg :: rest =>
    if itimediff sn seg.sn < 0 then seg :: rest
    else (if sn ≠ seg.sn then { seg with fastack := seg.fastack + 1 } else seg) :: countFastack sn rest

def parseFastack (sn : UInt32) : Ikcpcb :=
  if kcp.InFlight sn then { kcp with sndBuf := countFastack sn kcp.sndBuf } else kcp

def ackPush (sn ts : UInt32) : Ikcpcb := { kcp with acklist := kcp.acklist ++ [(sn, ts)] }

/-- The search of `ikcp_parse_data` from the last segment on: the new segment goes behind the first
one that is older, and nowhere if one has its number. -/
def insertBack (newseg : IkcpSeg) : List IkcpSeg → List IkcpSeg
  | [] => [newseg]
  | seg :: rest =>
    if seg.sn = newseg.sn then seg :: rest
    else if itimediff newseg.sn seg.sn > 0 then newseg :: seg :: rest
    else seg :: insertBack newseg rest

def insertSeg (newseg : IkcpSeg) : Ikcpcb :=
  let rcvBuf := (insertBack newseg kcp.rcvBuf.reverse).reverse
  { kcp with rcvBuf := rcvBuf, nrcvBuf := kcp.nrcvBuf + .ofNat (rcvBuf.length - kcp.rcvBuf.length) }

/-- `ikcp_parse_data`. -/
def parseData (newseg : IkcpSeg) : Ikcpcb :=
  if itimediff newseg.sn (kcp.rcvNxt + kcp.rcvWnd) ≥ 0 ∨ itimediff newseg.sn kcp.rcvNxt < 0 then kcp
  else (kcp.insertSeg newseg).moveAvailable

/-- What an acknowledgement does. -/
def inputAck (ts sn : UInt32) : Ikcpcb :=
  let kcp := if itimediff kcp.current ts ≥ 0 then kcp.updateAck (itimediff kcp.current ts) else kcp
  (kcp.parseAck sn).shrinkBuf

/-- What a data segment does. -/
def inputPush (seg : IkcpSeg) : Ikcpcb :=
  if itimediff seg.sn (kcp.rcvNxt + kcp.rcvWnd) < 0 then
    let kcp := kcp.ackPush seg.sn seg.ts
    if itimediff seg.sn kcp.rcvNxt ≥ 0 then kcp.parseData seg else kcp
  else kcp

/-- A segment that is no error: its window and `una`, and then what its command says. -/
def inputSeg (seg : IkcpSeg) : Ikcpcb :=
  let kcp := ({ kcp with rmtWnd := seg.wnd }.parseUna seg.una).shrinkBuf
  if seg.cmd = IKCP_CMD_ACK then kcp.inputAck seg.ts seg.sn
  else if seg.cmd = IKCP_CMD_PUSH then kcp.inputPush seg
  else if seg.cmd = IKCP_CMD_WASK then kcp.askTell
  else kcp

/-- The newest acknowledgement of a datagram. -/
def newestAck (maxack : Option UInt32) (seg : IkcpSeg) : Option UInt32 :=
  if seg.cmd = IKCP_CMD_ACK then
    match maxack with
    | none => some seg.sn
    | some sn => some (if itimediff seg.sn sn > 0 then seg.sn else sn)
  else maxack

def knownCmd (cmd : UInt32) : Prop :=
  cmd = IKCP_CMD_PUSH ∨ cmd = IKCP_CMD_ACK ∨ cmd = IKCP_CMD_WASK ∨ cmd = IKCP_CMD_WINS

instance (cmd : UInt32) : Decidable (knownCmd cmd) := inferInstanceAs (Decidable (_ ∨ _))

/-- The loop of `ikcp_input`; an error ends the call. Every turn takes a head off the data, so that
as many turns as there are bytes are enough. -/
def inputLoop : ℕ → Ikcpcb → List UInt8 → Option UInt32 → Ikcpcb × Option UInt32 × ℤ
  | 0, kcp, _, maxack => (kcp, maxack, 0)
  | turns + 1, kcp, data, maxack =>
    if data.length < IKCP_OVERHEAD then (kcp, maxack, 0)
    else
      let seg := IkcpSeg.decode data
      let len := Base.LittleEndian.read data 20 4
      if seg.conv ≠ kcp.conv then (kcp, maxack, -1)
      else if data.length - IKCP_OVERHEAD < len then (kcp, maxack, -2)
      else if ¬knownCmd seg.cmd then (kcp, maxack, -3)
      else inputLoop turns (kcp.inputSeg seg) (data.drop (IKCP_OVERHEAD + len)) (newestAck maxack seg)

/-- The window doubles up to `ssthresh`, and grows slowly from there. -/
def growWindow : Ikcpcb :=
  if kcp.cwnd < kcp.ssthresh then { kcp with cwnd := kcp.cwnd + 1, incr := kcp.incr + kcp.mss }
  else
    let incr := if kcp.incr < kcp.mss then kcp.mss else kcp.incr
    let incr := incr + (kcp.mss * kcp.mss / incr + kcp.mss / 16)
    { kcp with
      incr := incr, cwnd := if (kcp.cwnd + 1) * kcp.mss ≤ incr then kcp.cwnd + 1 else kcp.cwnd }

/-- What the window is when something new was acknowledged. -/
def openWindow : Ikcpcb :=
  if kcp.cwnd < kcp.rmtWnd then
    let kcp := kcp.growWindow
    if kcp.cwnd > kcp.rmtWnd then { kcp with cwnd := kcp.rmtWnd, incr := kcp.rmtWnd * kcp.mss } else kcp
  else kcp

/-- The newest acknowledgement is looked at when the datagram had one. -/
def parseMaxack : Option UInt32 → Ikcpcb
  | some sn => kcp.parseFastack sn
  | none => kcp

/-- `ikcp_input`. -/
def input (data : List UInt8) : Ikcpcb × ℤ :=
  if data.length < IKCP_OVERHEAD then (kcp, -1)
  else
    let una := kcp.sndUna
    let (kcp, maxack, ret) := inputLoop data.length kcp data none
    if ret ≠ 0 then (kcp, ret)
    else
      let kcp := kcp.parseMaxack maxack
      (if itimediff kcp.sndUna una > 0 then kcp.openWindow else kcp, 0)

/-! ### What is sent -/

def wndUnused : UInt32 := if kcp.nrcvQue < kcp.rcvWnd then kcp.rcvWnd - kcp.nrcvQue else 0

/-- The datagrams that were given to `output`, and the bytes from `buffer` to `ptr`. -/
structure Output where
  datagrams : List (List UInt8) := []
  buffer : List UInt8 := []
  deriving DecidableEq, Repr

/-- `ikcp_output` of what is in the buffer; nothing is output where it is empty. -/
def Output.flush (out : Output) : Output :=
  { datagrams := if out.buffer = [] then out.datagrams else out.datagrams ++ [out.buffer] }

/-- What does not go into the datagram any more begins a new one. -/
def Output.put (mtu : UInt32) (out : Output) (seg : IkcpSeg) : Output :=
  let out := if out.buffer.length + (IKCP_OVERHEAD + seg.data.length) > mtu.toNat then out.flush else out
  { out with buffer := out.buffer ++ seg.bytes }

/-- The segment without data that carries the acknowledgements. -/
def ackSeg : IkcpSeg :=
  { conv := kcp.conv, cmd := IKCP_CMD_ACK, frg := 0, wnd := kcp.wndUnused, ts := 0, sn := 0
    una := kcp.rcvNxt, data := [] }

/-- Flush acknowledges. The segment keeps the numbers of the last one. -/
def flushAcks (mtu : UInt32) : List (UInt32 × UInt32) → IkcpSeg × Output → IkcpSeg × Output
  | [], s => s
  | (sn, ts) :: acks, (seg, out) =>
    let seg := { seg with sn := sn, ts := ts }
    flushAcks mtu acks (seg, out.put mtu seg)

/-- The next time between two probes. -/
def nextProbeWait : UInt32 :=
  let wait := if kcp.probeWait < IKCP_PROBE_INIT then IKCP_PROBE_INIT else kcp.probeWait
  let wait := wait + wait / 2
  if wait > IKCP_PROBE_LIMIT then IKCP_PROBE_LIMIT else wait

/-- Probe window size (if remote window size equals zero). -/
def probeWindow : Ikcpcb :=
  if kcp.rmtWnd = 0 then
    if kcp.probeWait = 0 then
      { kcp with probeWait := IKCP_PROBE_INIT, tsProbe := kcp.current + IKCP_PROBE_INIT }
    else if itimediff kcp.current kcp.tsProbe ≥ 0 then
      { kcp with
        probeWait := kcp.nextProbeWait, tsProbe := kcp.current + kcp.nextProbeWait
        probe := kcp.probe ||| IKCP_ASK_SEND }
    else kcp
  else { kcp with tsProbe := 0, probeWait := 0 }

/-- Flush window probing commands. -/
def flushProbe (ask cmd : UInt32) (s : IkcpSeg × Output) : IkcpSeg × Output :=
  if kcp.probe &&& ask ≠ 0 then
    let seg := { s.1 with cmd := cmd }
    (seg, s.2.put kcp.mtu seg)
  else s

/-- How many segments may be on their way. -/
def sendWindow : UInt32 :=
  let cwnd := imin kcp.sndWnd kcp.rmtWnd
  if kcp.nocwnd = 0 then imin kcp.cwnd cwnd else cwnd

/-- A segment gets its number. -/
def number (wnd : UInt32) (seg : IkcpSeg) : IkcpSeg :=
  { seg with
    conv := kcp.conv, cmd := IKCP_CMD_PUSH, wnd := wnd, ts := kcp.current, sn := kcp.sndNxt
    una := kcp.rcvNxt, resendts := kcp.current, rto := kcp.rxRto, fastack := 0, xmit := 0 }

/-- The first segment of `snd_queue` goes to `snd_buf`. -/
def numberFirst (wnd : UInt32) (seg : IkcpSeg) (rest : List IkcpSeg) : Ikcpcb :=
  { kcp with
    sndQueue := rest, nsndQue := kcp.nsndQue - 1
    sndBuf := kcp.sndBuf ++ [kcp.number wnd seg], nsndBuf := kcp.nsndBuf + 1
    sndNxt := kcp.sndNxt + 1 }

/-- Move data from `snd_queue`, which is the list, to `snd_buf`. -/
def moveToSndBuf (wnd cwnd : UInt32) : List IkcpSeg → Ikcpcb → Ikcpcb
  | [], kcp => kcp
  | seg :: rest, kcp =>
    if itimediff kcp.sndNxt (kcp.sndUna + cwnd) < 0 then
      moveToSndBuf wnd cwnd rest (kcp.numberFirst wnd seg rest)
    else kcp

/-- Why a segment is sent. -/
inductive Reason where
  | first | timeout | fastack
  deriving DecidableEq, Repr

/-- How many acknowledgements of later segments make a segment be sent again. -/
def resent : UInt32 := if kcp.fastresend > 0 then .ofInt kcp.fastresend else 0xffffffff

def rtomin : UInt32 := if kcp.nodelay = 0 then kcp.rxRto >>> 3 else 0

/-- Whether a segment is to be sent now. -/
def reason (segment : IkcpSeg) : Option Reason :=
  if segment.xmit = 0 then some .first
  else if itimediff kcp.current segment.resendts ≥ 0 then some .timeout
  else if segment.fastack ≥ kcp.resent then some .fastack
  else none

/-- The timers of a segment that is sent. -/
def rearm (segment : IkcpSeg) : Reason → IkcpSeg
  | .first =>
    { segment with xmit := segment.xmit + 1, rto := kcp.rxRto
                   resendts := kcp.current + kcp.rxRto + kcp.rtomin }
  | .timeout =>
    let rto := segment.rto + if kcp.nodelay = 0 then kcp.rxRto else kcp.rxRto / 2
    { segment with xmit := segment.xmit + 1, rto := rto, resendts := kcp.current + rto }
  | .fastack =>
    { segment with xmit := segment.xmit + 1, fastack := 0, resendts := kcp.current + segment.rto }

/-- A segment as it is sent. -/
def sent (wnd : UInt32) (segment : IkcpSeg) (reason : Reason) : IkcpSeg :=
  { kcp.rearm segment reason with ts := kcp.current, wnd := wnd, una := kcp.rcvNxt }

/-- What the loop over `snd_buf` changes besides the segments. -/
structure FlushState where
  out : Output
  xmit : UInt32
  state : UInt32
  change : ℕ := 0
  lost : Bool := false
  deriving DecidableEq, Repr

/-- The state before the loop. -/
def flushState (out : Output) : FlushState := { out := out, xmit := kcp.xmit, state := kcp.state }

/-- A turn of the loop over `snd_buf`. -/
def flushSegment (wnd : UInt32) (s : FlushState) (segment : IkcpSeg) : FlushState × IkcpSeg :=
  match kcp.reason segment with
  | none => (s, segment)
  | some reason =>
    let segment := kcp.sent wnd segment reason
    ({ out := s.out.put kcp.mtu segment
       xmit := if reason = .timeout then s.xmit + 1 else s.xmit
       state := if segment.xmit ≥ kcp.deadLink then 0xffffffff else s.state
       change := if reason = .fastack then s.change + 1 else s.change
       lost := s.lost || reason = .timeout }, segment)

/-- Flush data segments. -/
def flushSegments (wnd : UInt32) : FlushState → List IkcpSeg → FlushState × List IkcpSeg
  | s, [] => (s, [])
  | s, segment :: rest =>
    let first := kcp.flushSegment wnd s segment
    let others := flushSegments wnd first.1 rest
    (others.1, first.2 :: others.2)

def setSegments (s : FlushState × List IkcpSeg) : Ikcpcb :=
  { kcp with sndBuf := s.2, xmit := s.1.xmit, state := s.1.state }

/-- Segments were sent again because of acknowledgements behind them. -/
def afterChange (resent : UInt32) : Ikcpcb :=
  let ssthresh := imax ((kcp.sndNxt - kcp.sndUna) / 2) IKCP_THRESH_MIN
  { kcp with ssthresh := ssthresh, cwnd := ssthresh + resent, incr := (ssthresh + resent) * kcp.mss }

/-- Segments were sent again because of the time. -/
def afterLost (cwnd : UInt32) : Ikcpcb :=
  { kcp with ssthresh := imax (cwnd / 2) IKCP_THRESH_MIN, cwnd := 1, incr := kcp.mss }

def leastWindow : Ikcpcb := if kcp.cwnd < 1 then { kcp with cwnd := 1, incr := kcp.mss } else kcp

/-- Update `ssthresh`. -/
def updateSsthresh (change : ℕ) (lost : Bool) (resent cwnd : UInt32) : Ikcpcb :=
  let kcp := if change ≠ 0 then kcp.afterChange resent else kcp
  let kcp := if lost then kcp.afterLost cwnd else kcp
  kcp.leastWindow

/-- Acknowledgements and probes, which come first. -/
def flushControl : Ikcpcb × IkcpSeg × Output :=
  let acks := flushAcks kcp.mtu kcp.acklist (kcp.ackSeg, {})
  let kcp := { kcp with acklist := [] }.probeWindow
  ({ kcp with probe := 0 }, kcp.flushProbe IKCP_ASK_TELL IKCP_CMD_WINS
    (kcp.flushProbe IKCP_ASK_SEND IKCP_CMD_WASK acks))

/-- `ikcp_flush`. -/
def flush : Ikcpcb × List (List UInt8) :=
  if kcp.updated = 0 then (kcp, [])
  else
    let control := kcp.flushControl
    let cwnd := control.1.sendWindow
    let kcp := moveToSndBuf control.2.1.wnd cwnd control.1.sndQueue control.1
    let s := kcp.flushSegments control.2.1.wnd (kcp.flushState control.2.2) kcp.sndBuf
    ((kcp.setSegments s).updateSsthresh s.1.change s.1.lost kcp.resent cwnd, s.1.out.flush.datagrams)

/-- The times that `ikcp_update` sets. -/
def setTimes (current updated tsFlush : UInt32) : Ikcpcb :=
  { kcp with current := current, updated := updated, tsFlush := tsFlush }

/-- The time of the next flush, after one that was due. -/
def nextFlush (current tsFlush : UInt32) : UInt32 :=
  if itimediff current (tsFlush + kcp.interval) ≥ 0 then current + kcp.interval
  else tsFlush + kcp.interval

/-- `ikcp_update`. -/
def update (current : UInt32) : Ikcpcb × List (List UInt8) :=
  let tsFlush := if kcp.updated = 0 then current else kcp.tsFlush
  let updated := if kcp.updated = 0 then 1 else kcp.updated
  let slap := itimediff current tsFlush
  if slap ≥ 10000 ∨ slap < -10000 then
    (kcp.setTimes current updated (kcp.nextFlush current current)).flush
  else if slap ≥ 0 then (kcp.setTimes current updated (kcp.nextFlush current tsFlush)).flush
  else (kcp.setTimes current updated tsFlush, [])

/-- The loop of `ikcp_check`: the least time until a segment is sent again; none if that is now. -/
def nextPacket (current : UInt32) : ℤ → List IkcpSeg → Option ℤ
  | tmPacket, [] => some tmPacket
  | tmPacket, seg :: rest =>
    let diff := itimediff seg.resendts current
    if diff ≤ 0 then none else nextPacket current (if diff < tmPacket then diff else tmPacket) rest

/-- `ikcp_check`. -/
def check (current : UInt32) : UInt32 :=
  if kcp.updated = 0 then current
  else
    let far := itimediff current kcp.tsFlush ≥ 10000 ∨ itimediff current kcp.tsFlush < -10000
    let tsFlush := if far then current else kcp.tsFlush
    if itimediff current tsFlush ≥ 0 then current
    else
      let tmFlush := itimediff tsFlush current
      match nextPacket current 0x7fffffff kcp.sndBuf with
      | none => current
      | some tmPacket =>
        let minimal := UInt32.ofInt (if tmPacket < tmFlush then tmPacket else tmFlush)
        current + if minimal ≥ kcp.interval then kcp.interval else minimal

end Ikcpcb

end KkLicode.Ikcp
