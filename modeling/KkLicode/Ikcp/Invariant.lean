import KkLicode.Base.Runs
import KkLicode.Ikcp.Input

/-! What holds of a control block in every run of calls, whatever bytes it is given:
the queues are sorted and bounded, the counters are their lengths, and what it sends
is cut into datagrams that fit in the `mtu` and that the other end takes whole. -/

namespace KkLicode.Ikcp

open Base Serial32

/-- A fragment fits: its number in a byte, its data in a segment. -/
def ContentFits (mss : UInt32) (c : Content) : Prop := c.1.toNat < 256 ∧ c.2.length ≤ mss.toNat

structure Settings.Ok (s : Settings) : Prop where
  mtu : 50 ≤ s.mtu.toNat ∧ s.mtu.toNat < 2 ^ 31
  mss : s.mss.toNat + IKCP_OVERHEAD = s.mtu.toNat
  rcvWnd : s.rcvWnd.toNat ≤ 65535

namespace View

variable {v : View}

structure Ok (v : View) : Prop where
  settings : v.settings.Ok
  send : v.send.Ok
  receive : v.receive.Ok
  rmtWnd : v.rmtWnd.toNat ≤ 65535
  waiting : ∀ c ∈ v.send.queue, ContentFits v.settings.mss c
  numbered : ∀ i ∈ v.send.buf,
    i.conv = v.settings.conv ∧ i.cmd = IKCP_CMD_PUSH ∧ ContentFits v.settings.mss i.content

theorem Ok.setRmtWnd (h : v.Ok) {wnd : UInt32} (hwnd : wnd.toNat ≤ 65535) : { v with rmtWnd := wnd }.Ok :=
  ⟨h.settings, h.send, h.receive, hwnd, h.waiting, h.numbered⟩

theorem Ok.setAcks (h : v.Ok) (acks : List (UInt32 × UInt32)) : { v with acks := acks }.Ok :=
  ⟨h.settings, h.send, h.receive, h.rmtWnd, h.waiting, h.numbered⟩

theorem Ok.setReceive (h : v.Ok) {receive : ReceiveSide} (hr : receive.Ok) :
    { v with receive := receive }.Ok :=
  ⟨h.settings, h.send, hr, h.rmtWnd, h.waiting, h.numbered⟩

theorem Ok.release (h : v.Ok) {buf : List Item} (hbuf : buf.Sublist v.send.buf) :
    { v with send := v.send.release buf }.Ok :=
  ⟨h.settings, h.send.release hbuf, h.receive, h.rmtWnd, h.waiting,
    fun i hi => h.numbered i (hbuf.subset hi)⟩

/-- Room in a window that a head can tell is room for a number. -/
theorem room {s : SendSide} (h : s.Ok) {cwnd : UInt32} (hcwnd : cwnd.toNat ≤ 65535)
    (hroom : itimediff s.nxt (s.una + cwnd) < 0) : ahead s.una s.nxt < cwnd.toNat := by
  have hspan := h.ahead_una
  have hneg := mt (@diff_nonneg (s.una + cwnd) s.nxt).mpr (not_le.mpr hroom)
  have hw : ahead s.una (s.una + cwnd) = cwnd.toNat := by
    rw [ahead, UInt32.add_comm, UInt32.add_sub_cancel]
  have hbase := ahead_base s.una (s.una + cwnd) s.nxt
  rw [hw] at hbase
  omega

theorem Ok.number (h : v.Ok) {x : Item} {queue : List Content} {cwnd : UInt32}
    (hnext : Ikcpcb.IsNext v.settings.conv v.send x queue) (hcwnd : cwnd.toNat ≤ v.rmtWnd.toNat)
    (hroom : itimediff v.send.nxt (v.send.una + cwnd) < 0) :
    { v with send := v.send.number x queue }.Ok := by
  have hlt := room h.send (hcwnd.trans h.rmtWnd) hroom
  have hwindow := hcwnd.trans h.rmtWnd
  refine ⟨h.settings, h.send.number hnext.sn hnext.queue (by omega), h.receive, h.rmtWnd, ?_, ?_⟩
  · exact fun c hc => h.waiting c (hnext.queue ▸ List.mem_cons_of_mem _ hc)
  · intro i hi
    rcases List.mem_append.mp hi with hi | hi
    · exact h.numbered i hi
    · obtain rfl := List.mem_singleton.mp hi
      exact ⟨hnext.conv, hnext.cmd, h.waiting _ (hnext.queue ▸ List.mem_cons_self)⟩

end View

namespace Ikcpcb

variable {kcp : Ikcpcb} {seg : IkcpSeg} {sn ts : UInt32}

/-! ### What arrives -/

theorem inputAck_ok (h : kcp.view.Ok) : (kcp.inputAck ts sn).view.Ok := by
  have hack : ∀ k : Ikcpcb, k.view.Ok → ((k.parseAck sn).shrinkBuf).view.Ok := fun k hk => by
    rw [parseAck_shrinkBuf_view, parseAck_shrinkBuf hk.send]
    refine hk.release (List.Sublist.map _ ?_)
    split_ifs
    · exact removeAcked_sublist _
    · exact List.Sublist.refl _
  unfold inputAck
  dsimp only
  split_ifs
  · exact hack _ ((updateAck_view _).symm ▸ h)
  · exact hack _ h

theorem inputPush_view_ok (h : kcp.view.Ok) : (kcp.inputPush seg).view.Ok := by
  rw [inputPush_view]
  exact (h.setAcks (kcp.inputPush seg).acklist).setReceive (inputPush_ok h.receive)

theorem inputSeg_ok (h : kcp.view.Ok) (hwnd : seg.wnd.toNat ≤ 65535) : (kcp.inputSeg seg).view.Ok := by
  have hrel : (({ kcp with rmtWnd := seg.wnd }.parseUna seg.una).shrinkBuf).view.Ok := by
    have hset : { kcp with rmtWnd := seg.wnd }.view.Ok := h.setRmtWnd hwnd
    rw [parseUna_shrinkBuf_view, parseUna_shrinkBuf hset.send]
    exact hset.release ((List.dropWhile_sublist _).map _)
  unfold inputSeg
  dsimp only
  split_ifs
  · exact inputAck_ok hrel
  · exact inputPush_view_ok hrel
  · exact hrel
  · exact hrel

theorem decode_wnd (b : List UInt8) : (IkcpSeg.decode b).wnd.toNat ≤ 65535 := by
  have hlt : LittleEndian.read b 6 2 < 256 ^ 2 := LittleEndian.read_lt b 6 2
  show (UInt32.ofNat (LittleEndian.read b 6 2)).toNat ≤ 65535
  rw [UInt32.toNat_ofNat']
  omega

theorem input_view_ok (h : kcp.view.Ok) (data : List UInt8) : (kcp.input data).1.view.Ok := by
  have hloop := fun turns maxack => inputLoop_rule (P := fun k => k.view.Ok)
    (fun k b hk => inputSeg_ok hk (decode_wnd b)) turns data maxack h
  unfold input
  split_ifs with hshort
  · exact h
  dsimp only
  split_ifs
  · exact hloop _ _
  · exact openWindow_view.symm ▸ parseMaxack_view.symm ▸ hloop _ _
  · exact parseMaxack_view.symm ▸ hloop _ _

/-! ### What is sent -/

theorem numberAll_ok (h : kcp.view.Ok) : kcp.numberAll.view.Ok := by
  rw [numberAll_view]
  refine View.Ok.setAcks (v := { kcp.view with send := kcp.numberAll.sendSide }) ?_ []
  refine numberAll_rule (P := fun s => { kcp.view with send := s }.Ok) ?_ h
  exact fun s x queue cwnd hs hnext hcwnd hroom => hs.number hnext hcwnd hroom

theorem flush_ok (h : kcp.view.Ok) : kcp.flush.1.view.Ok := by
  by_cases hup : kcp.updated = 0
  · rw [flush, if_pos hup]
    exact h
  · rw [flush_view hup, ← numberAll_view]
    exact numberAll_ok h

/-- `ikcp_update` sets the times, and flushes or not. -/
theorem update_cases (current : UInt32) :
    (∃ updated tsFlush, kcp.update current = (kcp.setTimes current updated tsFlush).flush) ∨
      ∃ updated tsFlush, kcp.update current = (kcp.setTimes current updated tsFlush, []) := by
  rw [update]
  by_cases hfar : itimediff current (if kcp.updated = 0 then current else kcp.tsFlush) ≥ 10000 ∨
      itimediff current (if kcp.updated = 0 then current else kcp.tsFlush) < -10000
  · rw [if_pos hfar]
    exact .inl ⟨_, _, rfl⟩
  · rw [if_neg hfar]
    by_cases hdue : itimediff current (if kcp.updated = 0 then current else kcp.tsFlush) ≥ 0
    · rw [if_pos hdue]
      exact .inl ⟨_, _, rfl⟩
    · rw [if_neg hdue]
      exact .inr ⟨_, _, rfl⟩

theorem update_ok (h : kcp.view.Ok) (current : UInt32) : (kcp.update current).1.view.Ok := by
  rcases @update_cases kcp current with ⟨updated, tsFlush, heq⟩ | ⟨updated, tsFlush, heq⟩
  · rw [heq]
    exact flush_ok h
  · rw [heq]
    exact h

/-! ### The application -/

theorem recv_view_ok (h : kcp.view.Ok) (len : ℤ) : (kcp.recv len).1.view.Ok := by
  rw [recv_view]
  exact h.setReceive (recv_ok h.receive len)

/-- The sending side with other segments that wait. -/
theorem setQueue_ok {v : View} (h : v.Ok) {queue : List Content}
    (hqueue : ∀ c ∈ queue, ContentFits v.settings.mss c) :
    View.Ok { v with send := { v.send with queue := queue, nQue := .ofNat queue.length } } :=
  ⟨h.settings, ⟨h.send.sorted, h.send.window, h.send.una, rfl, h.send.nBuf⟩, h.receive, h.rmtWnd, hqueue,
    h.numbered⟩

/-- The fragments of what is sent join the queue. -/
theorem sendFragments_view (h : kcp.view.Ok) {buffer : List UInt8}
    (hcount : fragmentCount kcp.mss.toNat buffer.length ≤ 255) :
    (kcp.sendFragments buffer).1.view =
      { kcp.view with
        send := { kcp.sendSide with
          queue := kcp.sendSide.queue ++ (fragments kcp.mss.toNat kcp.stream
            (fragmentCount kcp.mss.toNat buffer.length) buffer).map (·.content)
          nQue := .ofNat (kcp.sendSide.queue ++ (fragments kcp.mss.toNat kcp.stream
            (fragmentCount kcp.mss.toNat buffer.length) buffer).map (·.content)).length } } := by
  have hn : kcp.nsndQue = .ofNat kcp.sndQueue.length := by
    have := h.send.nQue
    rwa [view, sendSide, List.length_map] at this
  unfold sendFragments
  dsimp only
  rw [if_neg (by omega)]
  simp only [view, sendSide, settings, receiveSide, List.map_append, List.length_append, List.length_map,
    length_fragments, hn, UInt32.ofNat_add]

theorem sendFragments_ok (h : kcp.view.Ok) (buffer : List UInt8) :
    (kcp.sendFragments buffer).1.view.Ok := by
  by_cases hcount : fragmentCount kcp.mss.toNat buffer.length ≤ 255
  · rw [sendFragments_view h hcount]
    refine setQueue_ok h fun c hc => ?_
    rcases List.mem_append.mp hc with hc | hc
    · exact h.waiting c hc
    · obtain ⟨seg, hseg, rfl⟩ := List.mem_map.mp hc
      exact fragments_fit (by omega) hseg
  · unfold sendFragments
    dsimp only
    rw [if_pos (by omega)]
    exact h

theorem fillLast_ok (h : kcp.view.Ok) (buffer : List UInt8) : (kcp.fillLast buffer).1.view.Ok := by
  unfold fillLast
  cases hlast : kcp.sndQueue.getLast? with
  | none => exact h
  | some old =>
    dsimp only
    split_ifs with hless
    · obtain ⟨init, hinit⟩ := List.getLast?_eq_some_iff.mp hlast
      have hn : kcp.nsndQue = .ofNat kcp.sndQueue.length := by
        have := h.send.nQue
        rwa [view, sendSide, List.length_map] at this
      -- the last segment is replaced by a longer one, so that the counter stays right
      have hview : ∀ seg : IkcpSeg, { kcp with sndQueue := kcp.sndQueue.dropLast ++ [seg] }.view =
          { kcp.view with
            send := { kcp.sendSide with
              queue := (kcp.sndQueue.dropLast ++ [seg]).map (·.content)
              nQue := .ofNat ((kcp.sndQueue.dropLast ++ [seg]).map (·.content)).length } } := fun seg => by
        have hlen : (kcp.sndQueue.dropLast ++ [seg]).length = kcp.sndQueue.length := by
          rw [hinit, List.dropLast_concat, List.length_append, List.length_append]
          rfl
        simp only [view, sendSide, settings, receiveSide, List.length_map, hlen, hn]
      rw [hview]
      refine setQueue_ok h fun c hc => ?_
      obtain ⟨seg, hseg, rfl⟩ := List.mem_map.mp hc
      rcases List.mem_append.mp hseg with hseg | hseg
      · exact h.waiting _ (List.mem_map_of_mem (List.dropLast_subset _ hseg))
      · obtain rfl := List.mem_singleton.mp hseg
        refine ⟨Nat.zero_lt_succ _, ?_⟩
        show (old.data ++ buffer.take _).length ≤ kcp.mss.toNat
        rw [List.length_append, List.length_take]
        omega
    · exact h

theorem send_ok (h : kcp.view.Ok) (buffer : List UInt8) : (kcp.send buffer).1.view.Ok := by
  unfold send
  dsimp only
  split_ifs
  · exact fillLast_ok h buffer
  · exact sendFragments_ok (fillLast_ok h buffer) _
  · exact sendFragments_ok h buffer

/-! ### Datagrams -/

theorem wndUnused_le : kcp.wndUnused.toNat ≤ kcp.rcvWnd.toNat := by
  rw [wndUnused]
  split_ifs with h
  · rw [UInt32.toNat_sub_of_le _ _ (UInt32.le_iff_toNat_le.mpr (UInt32.lt_iff_toNat_lt.mp h).le)]
    exact Nat.sub_le _ _
  · exact Nat.zero_le _

theorem IsControl.sendable (h : kcp.view.Ok) (hseg : IsControl kcp seg) (hcmd : knownCmd seg.cmd)
    (hbyte : seg.cmd.toNat < 256) : Sendable kcp.conv seg where
  cmd := hbyte
  frg := by rw [hseg.frg]; decide
  wnd := by
    have := h.settings.rcvWnd
    have hle := @wndUnused_le kcp
    rw [hseg.wnd]
    exact lt_of_le_of_lt (hle.trans this) (by decide)
  len := by rw [hseg.data]; decide
  conv := hseg.conv
  known := hcmd

/-- A segment that a flush sends: it fits on the wire and is known to the other end; its `una` and
its acknowledgement are those of the receiving side, its data is in `snd_buf`. -/
structure Flushed (kcp : Ikcpcb) (seg : IkcpSeg) : Prop extends Sendable kcp.conv seg where
  una : seg.una = kcp.rcvNxt
  push : seg.cmd = IKCP_CMD_PUSH → seg.item ∈ kcp.numberAll.sendSide.buf
  ack : seg.cmd = IKCP_CMD_ACK → ∃ ts, (seg.sn, ts) ∈ kcp.acklist

theorem IsControl.flushed (h : kcp.view.Ok) (hseg : IsControl kcp seg) (hcmd : knownCmd seg.cmd)
    (hbyte : seg.cmd.toNat < 256) (hpush : seg.cmd ≠ IKCP_CMD_PUSH)
    (hack : seg.cmd = IKCP_CMD_ACK → ∃ ts, (seg.sn, ts) ∈ kcp.acklist) : Flushed kcp seg :=
  ⟨hseg.sendable h hcmd hbyte, hseg.una, fun hcmd => absurd hcmd hpush, hack⟩

theorem flushed_due (h : kcp.view.Ok) (hseg : seg ∈ kcp.numberAll.due kcp.wndUnused kcp.numberAll.sndBuf) :
    Flushed kcp seg := by
  obtain ⟨hitem, huna, hwnd⟩ := due_spec hseg
  have hset : kcp.numberAll.view.settings = kcp.settings := congrArg View.settings numberAll_view
  obtain ⟨hconv, hcmd, hfrg, hlen⟩ := (numberAll_ok h).numbered _ hitem
  rw [hset] at hconv hlen
  have hcmd : seg.cmd = IKCP_CMD_PUSH := hcmd
  refine ⟨⟨⟨by rw [hcmd]; decide, hfrg, ?_, ?_⟩, hconv, .inl hcmd⟩, ?_, fun _ => hitem, fun hack => ?_⟩
  · rw [hwnd]
    exact lt_of_le_of_lt (wndUnused_le.trans h.settings.rcvWnd) (by decide)
  · have hdata : seg.data.length ≤ kcp.mss.toNat := hlen
    have hmss : kcp.mss.toNat + IKCP_OVERHEAD = kcp.mtu.toNat := h.settings.mss
    have hmtu : kcp.mtu.toNat < 2 ^ 31 := h.settings.mtu.2
    omega
  · exact huna.trans (congrArg (fun v : View => v.receive.nxt) numberAll_view)
  · rw [hcmd] at hack
    exact absurd hack (by decide)

/-- What a datagram carries, segment by segment. -/
def Carries (conv : UInt32) (Q : IkcpSeg → Prop) (d : List UInt8) : Prop :=
  ∃ segs, segs ≠ [] ∧ d = row segs ∧ ∀ seg ∈ segs, Sendable conv seg ∧ Q seg

theorem Carries.imp {conv : UInt32} {Q Q' : IkcpSeg → Prop} (hQ : ∀ seg, Q seg → Q' seg) {d : List UInt8}
    (h : Carries conv Q d) : Carries conv Q' d := by
  obtain ⟨segs, hne, hd, hsegs⟩ := h
  exact ⟨segs, hne, hd, fun seg hseg => ⟨(hsegs seg hseg).1, hQ seg (hsegs seg hseg).2⟩⟩

theorem flush_carries (h : kcp.view.Ok) {d : List UInt8} (hd : d ∈ kcp.flush.2) :
    Carries kcp.conv (Flushed kcp) d := by
  have hup : kcp.updated ≠ 0 := fun hup => by
    rw [flush, if_pos hup] at hd
    cases hd
  obtain ⟨chunks, probes, hchunks, hne, hprobes, hflat⟩ := flush_datagrams hup
  rw [hchunks] at hd
  obtain ⟨segs, hsegs, rfl⟩ := List.mem_map.mp hd
  refine ⟨segs, fun hempty => hne (hempty ▸ hsegs), rfl, fun seg hseg => ?_⟩
  have hmem := List.mem_flatten.mpr ⟨segs, hsegs, hseg⟩
  rw [hflat] at hmem
  suffices hfl : Flushed kcp seg from ⟨hfl.toSendable, hfl⟩
  rcases List.mem_append.mp hmem with hmem | hmem
  · rcases List.mem_append.mp hmem with hmem | hmem
    · obtain ⟨ack, hack, rfl⟩ := List.mem_map.mp hmem
      exact (isControl_ackSeg.ackOf ack).flushed h (.inr (.inl rfl))
        (by decide : IKCP_CMD_ACK.toNat < 256) (by decide : IKCP_CMD_ACK ≠ IKCP_CMD_PUSH)
        fun _ => ⟨ack.2, hack⟩
    · have hp := hprobes seg hmem
      rcases hp.cmd with hcmd | hcmd
      · exact hp.toIsControl.flushed h (.inr (.inr (.inl hcmd))) (by rw [hcmd]; decide)
          (by rw [hcmd]; decide) fun hack => absurd (hcmd.symm.trans hack) (by decide)
      · exact hp.toIsControl.flushed h (.inr (.inr (.inr hcmd))) (by rw [hcmd]; decide)
          (by rw [hcmd]; decide) fun hack => absurd (hcmd.symm.trans hack) (by decide)
  · exact flushed_due h hmem

/-- No datagram of a flush is longer than the `mtu`. -/
theorem flush_within (h : kcp.view.Ok) : ∀ d ∈ kcp.flush.2, d.length ≤ kcp.mtu.toNat := by
  have hmss : kcp.mss.toNat + IKCP_OVERHEAD = kcp.mtu.toNat := h.settings.mss
  have hmtu : ∀ k : Ikcpcb, k.view.settings = kcp.settings → k.mtu = kcp.mtu := fun k hk =>
    congrArg Settings.mtu hk
  have hempty : IKCP_OVERHEAD + kcp.ackSeg.data.length ≤ kcp.mtu.toNat := by
    show IKCP_OVERHEAD + 0 ≤ _
    omega
  have hstart : Output.Within kcp.mtu {} := Output.within_empty
  have hacks := flushAcks_within kcp.acklist hstart hempty
  have hprobe : { kcp with acklist := [] }.probeWindow.mtu = kcp.mtu :=
    hmtu _ (congrArg View.settings probeWindow_view)
  obtain ⟨-, sn, ts, hseg⟩ := @flushAcks_spec kcp.ackSeg {} [] kcp.mtu kcp.acklist Output.holds_empty
  obtain ⟨hask, hdata⟩ := @flushProbe_within { kcp with acklist := [] }.probeWindow IKCP_ASK_SEND
    IKCP_CMD_WASK (flushAcks kcp.mtu kcp.acklist (kcp.ackSeg, {})) (hprobe.symm ▸ hacks)
    (by rw [hseg, hprobe]; exact hempty)
  obtain ⟨htell, -⟩ := @flushProbe_within { kcp with acklist := [] }.probeWindow IKCP_ASK_TELL
    IKCP_CMD_WINS _ hask (by rw [hdata, hseg, hprobe]; exact hempty)
  have hnum := hmtu kcp.numberAll (congrArg View.settings numberAll_view)
  have hstate : (kcp.numberAll.flushState kcp.flushControl.2.2).out.Within kcp.numberAll.mtu := by
    rw [hnum, ← hprobe]
    exact htell
  have hsegs := flushSegments_within kcp.flushControl.2.1.wnd
    (kcp.numberAll.flushState kcp.flushControl.2.2) kcp.numberAll.sndBuf hstate fun seg hseg => by
      have hlen : seg.data.length ≤ kcp.numberAll.mss.toNat :=
        ((numberAll_ok h).numbered _ (List.mem_map_of_mem hseg)).2.2.2
      have hm : kcp.numberAll.mss = kcp.mss :=
        congrArg Settings.mss (congrArg View.settings numberAll_view)
      rw [hm] at hlen
      rw [hnum]
      omega
  rw [flush]
  split_ifs
  · simp
  · exact hnum ▸ hsegs.flush.datagrams

end Ikcpcb

end KkLicode.Ikcp
