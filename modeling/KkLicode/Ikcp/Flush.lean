import KkLicode.Ikcp.ReceiveSide
import KkLicode.Ikcp.SendSide

/-! What `ikcp_flush` sends: the acknowledgements, the probes and the segments that
are due, in this order, cut into datagrams between segments. No datagram is longer
than the `mtu`, as long as no segment is. -/

namespace KkLicode.Ikcp

open Base Serial32

/-- The bytes of a row of segments. -/
def row (segs : List IkcpSeg) : List UInt8 := segs.flatMap (·.bytes)

@[simp] theorem row_nil : row [] = [] := rfl

theorem row_append (s t : List IkcpSeg) : row (s ++ t) = row s ++ row t := List.flatMap_append

theorem row_singleton (seg : IkcpSeg) : row [seg] = seg.bytes := List.flatMap_singleton _ _

theorem row_eq_nil {segs : List IkcpSeg} : row segs = [] ↔ segs = [] := by
  cases segs with
  | nil => simp
  | cons seg segs =>
    refine iff_of_false (fun h => ?_) (List.cons_ne_nil _ _)
    have := congrArg List.length h
    rw [row, List.flatMap_cons, List.length_append, IkcpSeg.length_bytes, IKCP_OVERHEAD] at this
    simp at this

namespace Ikcpcb

namespace Output

variable {out : Output} {segs : List IkcpSeg} {mtu : UInt32} {seg : IkcpSeg}

/-- The segments that were put out, in order, cut into datagrams between segments. -/
def Holds (out : Output) (segs : List IkcpSeg) : Prop :=
  ∃ (chunks : List (List IkcpSeg)) (last : List IkcpSeg), out.datagrams = chunks.map row ∧ out.buffer = row last ∧
    segs = chunks.flatten ++ last ∧ [] ∉ chunks

theorem holds_empty : Holds {} [] := ⟨[], [], rfl, rfl, rfl, List.not_mem_nil⟩

theorem Holds.flush (h : out.Holds segs) :
    ∃ chunks : List (List IkcpSeg), out.flush.datagrams = chunks.map row ∧ segs = chunks.flatten ∧ [] ∉ chunks ∧
      out.flush.buffer = [] := by
  obtain ⟨chunks, last, hd, hb, rfl, hne⟩ := h
  by_cases hlast : last = []
  · refine ⟨chunks, ?_, by rw [hlast, List.append_nil], hne, rfl⟩
    rw [Output.flush, if_pos (hb.trans (row_eq_nil.mpr hlast)), hd]
  · refine ⟨chunks ++ [last], ?_, by rw [List.flatten_append]; simp, ?_, rfl⟩
    · rw [Output.flush, if_neg (fun h => hlast (row_eq_nil.mp (hb.symm.trans h))), hd, hb, List.map_append]
      rfl
    · rw [List.mem_append, List.mem_singleton, not_or]
      exact ⟨hne, fun h => hlast h.symm⟩

theorem Holds.put (h : out.Holds segs) : (out.put mtu seg).Holds (segs ++ [seg]) := by
  rw [Output.put]
  split_ifs
  · obtain ⟨chunks, hd, rfl, hne, hb⟩ := h.flush
    exact ⟨chunks, [seg], hd, by rw [hb, row_singleton]; rfl, rfl, hne⟩
  · obtain ⟨chunks, last, hd, hb, rfl, hne⟩ := h
    exact ⟨chunks, last ++ [seg], hd, by rw [hb, row_append, row_singleton],
      by rw [List.append_assoc], hne⟩

/-- What is put out goes into datagrams of at most the `mtu`. -/
structure Within (mtu : UInt32) (out : Output) : Prop where
  datagrams : ∀ d ∈ out.datagrams, d.length ≤ mtu.toNat
  buffer : out.buffer.length ≤ mtu.toNat

theorem within_empty : Within mtu {} := ⟨by simp, Nat.zero_le _⟩

theorem Within.flush (h : out.Within mtu) : out.flush.Within mtu := by
  refine ⟨fun d hd => ?_, Nat.zero_le _⟩
  rw [Output.flush] at hd
  split_ifs at hd
  · exact h.datagrams d hd
  · rcases List.mem_append.mp hd with hd | hd
    · exact h.datagrams d hd
    · exact List.mem_singleton.mp hd ▸ h.buffer

theorem Within.put (h : out.Within mtu) (hseg : IKCP_OVERHEAD + seg.data.length ≤ mtu.toNat) :
    (out.put mtu seg).Within mtu := by
  rw [Output.put]
  split_ifs with hfull
  · refine ⟨h.flush.datagrams, ?_⟩
    rw [List.length_append, IkcpSeg.length_bytes]
    exact (Nat.zero_add _).trans_le hseg
  · refine ⟨h.datagrams, ?_⟩
    rw [List.length_append, IkcpSeg.length_bytes]
    omega

end Output

variable {kcp : Ikcpcb} {seg : IkcpSeg} {out : Output} {segs : List IkcpSeg} {mtu wnd cwnd : UInt32}

/-! ### Acknowledgements and probes -/

/-- The segment of an acknowledgement. -/
def ackOf (seg : IkcpSeg) (ack : UInt32 × UInt32) : IkcpSeg := { seg with sn := ack.1, ts := ack.2 }

theorem flushAcks_spec (acks : List (UInt32 × UInt32)) (h : out.Holds segs) :
    (flushAcks mtu acks (seg, out)).2.Holds (segs ++ acks.map (ackOf seg)) ∧
      ∃ sn ts, (flushAcks mtu acks (seg, out)).1 = ackOf seg (sn, ts) := by
  induction acks generalizing seg out segs with
  | nil => exact ⟨by rwa [List.map_nil, List.append_nil], seg.sn, seg.ts, rfl⟩
  | cons ack acks ih =>
    obtain ⟨hout, sn, ts, hseg⟩ := @ih (ackOf seg ack) _ _ h.put
    refine ⟨?_, sn, ts, hseg⟩
    rw [List.map_cons, List.append_cons]
    exact hout

theorem flushAcks_within (acks : List (UInt32 × UInt32)) (h : out.Within mtu)
    (hseg : IKCP_OVERHEAD + seg.data.length ≤ mtu.toNat) :
    (flushAcks mtu acks (seg, out)).2.Within mtu := by
  induction acks generalizing seg out with
  | nil => exact h
  | cons ack acks ih => exact ih (h.put hseg) hseg

/-- The head of a segment without data. -/
structure IsControl (kcp : Ikcpcb) (seg : IkcpSeg) : Prop where
  conv : seg.conv = kcp.conv
  frg : seg.frg = 0
  wnd : seg.wnd = kcp.wndUnused
  una : seg.una = kcp.rcvNxt
  data : seg.data = []

/-- A window that is asked for or told. -/
structure IsProbe (kcp : Ikcpcb) (seg : IkcpSeg) : Prop extends IsControl kcp seg where
  cmd : seg.cmd = IKCP_CMD_WASK ∨ seg.cmd = IKCP_CMD_WINS

theorem isControl_ackSeg : IsControl kcp kcp.ackSeg := ⟨rfl, rfl, rfl, rfl, rfl⟩

theorem IsControl.ackOf (h : IsControl kcp seg) (ack : UInt32 × UInt32) : IsControl kcp (ackOf seg ack) :=
  ⟨h.conv, h.frg, h.wnd, h.una, h.data⟩

theorem flushProbe_spec {ask cmd : UInt32} {k : Ikcpcb} {s : IkcpSeg × Output} (h : s.2.Holds segs)
    (hseg : IsControl kcp s.1) (hcmd : cmd = IKCP_CMD_WASK ∨ cmd = IKCP_CMD_WINS) :
    ∃ probes, (k.flushProbe ask cmd s).2.Holds (segs ++ probes) ∧ (∀ p ∈ probes, IsProbe kcp p) ∧
      IsControl kcp (k.flushProbe ask cmd s).1 := by
  have hctl : IsControl kcp { s.1 with cmd := cmd } := ⟨hseg.conv, hseg.frg, hseg.wnd, hseg.una, hseg.data⟩
  rw [flushProbe]
  split_ifs
  · refine ⟨[{ s.1 with cmd := cmd }], h.put, fun p hp => ?_, hctl⟩
    exact List.mem_singleton.mp hp ▸ { hctl with cmd := hcmd }
  · exact ⟨[], by rwa [List.append_nil], by simp, hseg⟩

theorem flushProbe_within {ask cmd : UInt32} {s : IkcpSeg × Output} (h : s.2.Within kcp.mtu)
    (hseg : IKCP_OVERHEAD + s.1.data.length ≤ kcp.mtu.toNat) :
    (kcp.flushProbe ask cmd s).2.Within kcp.mtu ∧ (kcp.flushProbe ask cmd s).1.data = s.1.data := by
  rw [flushProbe]
  split_ifs
  · exact ⟨h.put hseg, rfl⟩
  · exact ⟨h, rfl⟩

/-- What a flush sends before the data. -/
theorem flushControl_spec :
    ∃ probes, kcp.flushControl.2.2.Holds (kcp.acklist.map (ackOf kcp.ackSeg) ++ probes) ∧
      (∀ p ∈ probes, IsProbe kcp p) ∧ IsControl kcp kcp.flushControl.2.1 := by
  obtain ⟨hacks, sn, ts, hseg⟩ :=
    @flushAcks_spec kcp.ackSeg {} [] kcp.mtu kcp.acklist Output.holds_empty
  rw [List.nil_append] at hacks
  have hctl : IsControl kcp (flushAcks kcp.mtu kcp.acklist (kcp.ackSeg, {})).1 :=
    hseg ▸ isControl_ackSeg.ackOf _
  obtain ⟨ask, hask, hpask, hctl⟩ := @flushProbe_spec kcp _ IKCP_ASK_SEND IKCP_CMD_WASK
    { kcp with acklist := [] }.probeWindow _ hacks hctl (.inl rfl)
  obtain ⟨tell, htell, hptell, hctl⟩ := @flushProbe_spec kcp _ IKCP_ASK_TELL IKCP_CMD_WINS
    { kcp with acklist := [] }.probeWindow _ hask hctl (.inr rfl)
  refine ⟨ask ++ tell, by rwa [← List.append_assoc], fun p hp => ?_, hctl⟩
  exact (List.mem_append.mp hp).elim (hpask p) (hptell p)

theorem flushControl_view : kcp.flushControl.1.view = { kcp.view with acks := [] } := by
  show { kcp with acklist := [] }.probeWindow.view = _
  rw [probeWindow_view]
  rfl

/-! ### Data -/

theorem sent_item (reason : Reason) : (kcp.sent wnd seg reason).item = seg.item := by
  cases reason <;> rfl

/-- The segments that are due, as they are sent. -/
def due (kcp : Ikcpcb) (wnd : UInt32) (l : List IkcpSeg) : List IkcpSeg :=
  l.filterMap fun seg => (kcp.reason seg).map (kcp.sent wnd seg)

theorem flushSegments_item (s : FlushState) (l : List IkcpSeg) :
    (kcp.flushSegments wnd s l).2.map (·.item) = l.map (·.item) := by
  induction l generalizing s with
  | nil => rfl
  | cons seg l ih =>
    have hseg : (kcp.flushSegment wnd s seg).2.item = seg.item := by
      unfold flushSegment
      cases kcp.reason seg with
      | none => rfl
      | some reason => exact sent_item reason
    rw [flushSegments, List.map_cons, List.map_cons, ih, hseg]

theorem flushSegments_spec (kcp : Ikcpcb) (wnd : UInt32) (s : FlushState) (l : List IkcpSeg)
    (h : s.out.Holds segs) : (kcp.flushSegments wnd s l).1.out.Holds (segs ++ kcp.due wnd l) := by
  induction l generalizing s segs with
  | nil =>
    rw [due, List.filterMap_nil, List.append_nil]
    exact h
  | cons seg l ih =>
    rw [flushSegments, due, List.filterMap_cons, flushSegment]
    cases kcp.reason seg with
    | none => exact ih _ h
    | some reason =>
      dsimp only [Option.map_some]
      rw [List.append_cons]
      exact ih _ h.put

theorem flushSegments_within (wnd : UInt32) (s : FlushState) (l : List IkcpSeg) (h : s.out.Within kcp.mtu)
    (hl : ∀ seg ∈ l, IKCP_OVERHEAD + seg.data.length ≤ kcp.mtu.toNat) :
    (kcp.flushSegments wnd s l).1.out.Within kcp.mtu := by
  induction l generalizing s with
  | nil => exact h
  | cons seg l ih =>
    refine ih _ ?_ fun t ht => hl t (List.mem_cons_of_mem _ ht)
    unfold flushSegment
    cases hreason : kcp.reason seg with
    | none => exact h
    | some reason =>
      refine h.put ?_
      have hdata : (kcp.sent wnd seg reason).data = seg.data := by
        cases reason <;> rfl
      rw [hdata]
      exact hl seg List.mem_cons_self

theorem due_spec {l : List IkcpSeg} (h : seg ∈ kcp.due wnd l) :
    seg.item ∈ l.map (·.item) ∧ seg.una = kcp.rcvNxt ∧ seg.wnd = wnd := by
  obtain ⟨t, ht, heq⟩ := List.mem_filterMap.mp h
  obtain ⟨reason, -, rfl⟩ := Option.map_eq_some_iff.mp heq
  exact ⟨List.mem_map.mpr ⟨t, ht, (sent_item reason).symm⟩, rfl, rfl⟩

/-! ### New numbers -/

theorem numberFirst_sendSide (rest : List IkcpSeg) : (kcp.numberFirst wnd seg rest).sendSide =
    kcp.sendSide.number (kcp.number wnd seg).item (rest.map (·.content)) := by
  simp only [sendSide, numberFirst, SendSide.number, List.map_append, List.map_singleton]

/-- A segment that is about to get the next number. -/
structure IsNext (conv : UInt32) (s : SendSide) (x : Item) (queue : List Content) : Prop where
  queue : s.queue = x.content :: queue
  sn : x.sn = s.nxt
  conv : x.conv = conv
  cmd : x.cmd = IKCP_CMD_PUSH

/-- What every new number keeps, a flush keeps. -/
theorem moveToSndBuf_rule {P : SendSide → Prop}
    (hstep : ∀ s x queue, P s → IsNext kcp.conv s x queue → itimediff s.nxt (s.una + cwnd) < 0 →
      P (s.number x queue))
    {l : List IkcpSeg} (hl : kcp.sndQueue = l) (h : P kcp.sendSide) :
    P (moveToSndBuf wnd cwnd l kcp).sendSide := by
  induction l generalizing kcp with
  | nil => exact h
  | cons seg l ih =>
    rw [moveToSndBuf]
    split_ifs with hroom
    · refine ih hstep rfl ?_
      rw [numberFirst_sendSide]
      refine hstep _ _ _ h ⟨?_, rfl, rfl, rfl⟩ hroom
      rw [sendSide, hl]
      rfl
    · exact h

/-- The control block when all segments that may be sent have a number. -/
def numberAll (kcp : Ikcpcb) : Ikcpcb :=
  moveToSndBuf kcp.flushControl.2.1.wnd kcp.flushControl.1.sendWindow kcp.flushControl.1.sndQueue
    kcp.flushControl.1

theorem imin_le_right (a b : UInt32) : (imin a b).toNat ≤ b.toNat := by
  rw [imin]
  split_ifs with h
  · exact UInt32.le_iff_toNat_le.mp h
  · exact Nat.le_refl _

theorem sendWindow_le : kcp.sendWindow.toNat ≤ kcp.rmtWnd.toNat := by
  unfold sendWindow
  dsimp only
  split_ifs
  · exact Nat.le_trans (imin_le_right _ _) (imin_le_right _ _)
  · exact imin_le_right _ _

theorem numberAll_rule {P : SendSide → Prop}
    (hstep : ∀ s x queue cwnd, P s → IsNext kcp.conv s x queue →
      cwnd.toNat ≤ kcp.rmtWnd.toNat → itimediff s.nxt (s.una + cwnd) < 0 → P (s.number x queue))
    (h : P kcp.sendSide) : P kcp.numberAll.sendSide := by
  have hconv : kcp.flushControl.1.conv = kcp.conv :=
    congrArg (fun v : View => v.settings.conv) flushControl_view
  have hrmt : kcp.flushControl.1.rmtWnd = kcp.rmtWnd := congrArg View.rmtWnd flushControl_view
  have hsend : kcp.flushControl.1.sendSide = kcp.sendSide := congrArg View.send flushControl_view
  refine moveToSndBuf_rule (fun s x queue hs hnext hroom => ?_) rfl (hsend ▸ h)
  exact hstep s x queue _ hs (hconv ▸ hnext) (hrmt ▸ sendWindow_le) hroom

theorem numberAll_view :
    kcp.numberAll.view = { kcp.view with acks := [], send := kcp.numberAll.sendSide } := by
  rw [numberAll, moveToSndBuf_view, flushControl_view]

/-! ### The whole flush -/

theorem setSegments_view {s : FlushState × List IkcpSeg}
    (h : s.2.map (·.item) = kcp.sndBuf.map (·.item)) : (kcp.setSegments s).view = kcp.view := by
  simp only [view, settings, sendSide, receiveSide, setSegments, h]

theorem flush_view (h : kcp.updated ≠ 0) :
    kcp.flush.1.view = { kcp.view with acks := [], send := kcp.numberAll.sendSide } := by
  rw [flush, if_neg h]
  dsimp only
  rw [updateSsthresh_view, setSegments_view (flushSegments_item _ _)]
  exact numberAll_view

/-- What a flush sends, in order: acknowledgements, probes and data. -/
theorem flush_datagrams (h : kcp.updated ≠ 0) :
    ∃ (chunks : List (List IkcpSeg)) (probes : List IkcpSeg), kcp.flush.2 = chunks.map row ∧
      [] ∉ chunks ∧ (∀ p ∈ probes, IsProbe kcp p) ∧ chunks.flatten =
        kcp.acklist.map (ackOf kcp.ackSeg) ++ probes ++
          kcp.numberAll.due kcp.wndUnused kcp.numberAll.sndBuf := by
  obtain ⟨probes, hout, hprobes, hctl⟩ := @flushControl_spec kcp
  obtain ⟨chunks, hd, hsegs, hne, -⟩ := (flushSegments_spec kcp.numberAll kcp.flushControl.2.1.wnd
    (kcp.numberAll.flushState kcp.flushControl.2.2) kcp.numberAll.sndBuf hout).flush
  refine ⟨chunks, probes, ?_, hne, hprobes, ?_⟩
  · rw [flush, if_neg h]
    exact hd
  · rw [← hsegs, hctl.wnd]

end Ikcpcb

end KkLicode.Ikcp
