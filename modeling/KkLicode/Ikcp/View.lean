import KkLicode.Ikcp.ControlBlock

/-! What the delivery of data depends on in a control block: the settings, the
sending side, the receiving side, the acknowledgements that were not sent yet and
the window of the other end. Timers, round trip times and the congestion window are
left out; which functions change which part is said here once. -/

namespace KkLicode.Ikcp

/-- What a segment carries: the place of the fragment in its message, and the data. -/
abbrev Content := UInt32 × List UInt8

/-- What of a segment stays as it is once it has a number. -/
structure Item where
  conv : UInt32
  cmd : UInt32
  sn : UInt32
  content : Content

namespace IkcpSeg

def content (seg : IkcpSeg) : Content := (seg.frg, seg.data)

def item (seg : IkcpSeg) : Item := ⟨seg.conv, seg.cmd, seg.sn, seg.content⟩

end IkcpSeg

/-- What no call changes once a control block is set up. -/
structure Settings where
  conv : UInt32
  mtu : UInt32
  mss : UInt32
  sndWnd : UInt32
  rcvWnd : UInt32
  rxMinrto : UInt32
  interval : UInt32
  nodelay : UInt32
  fastresend : ℤ
  nocwnd : ℤ
  stream : ℤ

structure SendSide where
  una : UInt32
  nxt : UInt32
  nQue : UInt32
  nBuf : UInt32
  queue : List Content
  buf : List Item

structure ReceiveSide where
  nxt : UInt32
  wnd : UInt32
  nQue : UInt32
  nBuf : UInt32
  queue : List Content
  buf : List Item

structure View where
  settings : Settings
  send : SendSide
  receive : ReceiveSide
  acks : List (UInt32 × UInt32)
  rmtWnd : UInt32

namespace Ikcpcb

variable {kcp : Ikcpcb} {sn ts una current updated tsFlush : UInt32} {seg : IkcpSeg}

def settings (kcp : Ikcpcb) : Settings where
  conv := kcp.conv
  mtu := kcp.mtu
  mss := kcp.mss
  sndWnd := kcp.sndWnd
  rcvWnd := kcp.rcvWnd
  rxMinrto := kcp.rxMinrto
  interval := kcp.interval
  nodelay := kcp.nodelay
  fastresend := kcp.fastresend
  nocwnd := kcp.nocwnd
  stream := kcp.stream

def sendSide (kcp : Ikcpcb) : SendSide where
  una := kcp.sndUna
  nxt := kcp.sndNxt
  nQue := kcp.nsndQue
  nBuf := kcp.nsndBuf
  queue := kcp.sndQueue.map (·.content)
  buf := kcp.sndBuf.map (·.item)

def receiveSide (kcp : Ikcpcb) : ReceiveSide where
  nxt := kcp.rcvNxt
  wnd := kcp.rcvWnd
  nQue := kcp.nrcvQue
  nBuf := kcp.nrcvBuf
  queue := kcp.rcvQueue.map (·.content)
  buf := kcp.rcvBuf.map (·.item)

def view (kcp : Ikcpcb) : View where
  settings := kcp.settings
  send := kcp.sendSide
  receive := kcp.receiveSide
  acks := kcp.acklist
  rmtWnd := kcp.rmtWnd

/-! ### Timers, windows and probes -/

theorem updateAck_view (rtt : ℤ) : (kcp.updateAck rtt).view = kcp.view := by
  unfold updateAck
  split <;> rfl

theorem openWindow_view : kcp.openWindow.view = kcp.view := by
  unfold openWindow growWindow
  dsimp only
  split_ifs <;> rfl

theorem probeWindow_view : kcp.probeWindow.view = kcp.view := by
  unfold probeWindow
  split_ifs <;> simp only [view, settings, sendSide, receiveSide]

theorem leastWindow_view : kcp.leastWindow.view = kcp.view := by
  unfold leastWindow
  split <;> rfl

theorem updateSsthresh_view (change : ℕ) (lost : Bool) (resent cwnd : UInt32) :
    (kcp.updateSsthresh change lost resent cwnd).view = kcp.view := by
  unfold updateSsthresh
  rw [leastWindow_view]
  split_ifs <;> rfl

theorem recover_view (full : Bool) : (kcp.recover full).view = kcp.view := by
  unfold recover
  split <;> rfl

theorem countFastack_item (l : List IkcpSeg) : (countFastack sn l).map (·.item) = l.map (·.item) := by
  induction l with
  | nil => rfl
  | cons seg l ih =>
    rw [countFastack]
    split_ifs
    · rfl
    · rw [List.map_cons, List.map_cons, ih]
      rfl
    · rw [List.map_cons, List.map_cons, ih]

theorem parseFastack_view : (kcp.parseFastack sn).view = kcp.view := by
  unfold parseFastack
  split
  · simp only [view, settings, sendSide, receiveSide, countFastack_item]
  · rfl

theorem parseMaxack_view {maxack : Option UInt32} : (kcp.parseMaxack maxack).view = kcp.view := by
  cases maxack with
  | none => rfl
  | some sn => exact parseFastack_view

/-! ### The sending side -/

theorem parseUna_shrinkBuf_view : (kcp.parseUna una).shrinkBuf.view =
    { kcp.view with send := (kcp.parseUna una).shrinkBuf.sendSide } := rfl

theorem parseAck_shrinkBuf_view : (kcp.parseAck sn).shrinkBuf.view =
    { kcp.view with send := (kcp.parseAck sn).shrinkBuf.sendSide } := by
  unfold parseAck
  split <;> rfl

theorem moveToSndBuf_view (wnd cwnd : UInt32) (l : List IkcpSeg) :
    (moveToSndBuf wnd cwnd l kcp).view =
      { kcp.view with send := (moveToSndBuf wnd cwnd l kcp).sendSide } := by
  induction l generalizing kcp with
  | nil => rfl
  | cons seg l ih =>
    rw [moveToSndBuf]
    split
    · rw [ih]
      rfl
    · rfl

theorem sendFragments_view_send (buffer : List UInt8) : (kcp.sendFragments buffer).1.view =
    { kcp.view with send := (kcp.sendFragments buffer).1.sendSide } := by
  unfold sendFragments
  dsimp only
  split_ifs <;> rfl

theorem fillLast_view (buffer : List UInt8) : (kcp.fillLast buffer).1.view =
    { kcp.view with send := (kcp.fillLast buffer).1.sendSide } := by
  unfold fillLast
  cases kcp.sndQueue.getLast? with
  | none => rfl
  | some old =>
    dsimp only
    split_ifs <;> rfl

theorem send_view (buffer : List UInt8) :
    (kcp.send buffer).1.view = { kcp.view with send := (kcp.send buffer).1.sendSide } := by
  unfold send
  dsimp only
  split_ifs
  · exact fillLast_view buffer
  · rw [sendFragments_view_send, fillLast_view]
  · exact sendFragments_view_send buffer

/-! ### The receiving side -/

theorem moveLoop_view (l : List IkcpSeg) :
    (moveLoop l kcp).view = { kcp.view with receive := (moveLoop l kcp).receiveSide } := by
  induction l generalizing kcp with
  | nil => rfl
  | cons seg l ih =>
    rw [moveLoop]
    split
    · rw [ih]
      rfl
    · rfl

theorem moveAvailable_view :
    kcp.moveAvailable.view = { kcp.view with receive := kcp.moveAvailable.receiveSide } :=
  moveLoop_view _

theorem parseData_view :
    (kcp.parseData seg).view = { kcp.view with receive := (kcp.parseData seg).receiveSide } := by
  unfold parseData
  split
  · rfl
  · rw [moveAvailable_view]
    rfl

theorem recover_receiveSide (full : Bool) : (kcp.recover full).receiveSide = kcp.receiveSide :=
  congrArg View.receive (recover_view full)

theorem recv_view (len : ℤ) :
    (kcp.recv len).1.view = { kcp.view with receive := (kcp.recv len).1.receiveSide } := by
  unfold recv
  split_ifs
  · rfl
  · rfl
  · rfl
  · dsimp only
    rw [recover_receiveSide, recover_view, moveAvailable_view]
  · dsimp only
    rw [recover_receiveSide, recover_view, moveAvailable_view]
    rfl

end Ikcpcb

end KkLicode.Ikcp
