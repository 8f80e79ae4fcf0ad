import Mathlib.Data.List.Perm.Subperm
import KkLicode.Ikcp.Invariant

/-! Runs of a control block. It is set up first, as `CKKkcp::CreateKcp` does it or in
another way, and then given calls in any order and bytes of any kind. -/

namespace KkLicode.Ikcp

open Base Serial32

/-- A setting, given as an `int` where the source takes one. -/
inductive Setting where
  | mtu (n : Int32)
  | nodelay (on interval resend nc : Int32)
  | wndsize (sndwnd rcvwnd : Int32)
  | minrto (rto : UInt32)
  deriving DecidableEq, Repr

def Setting.apply (kcp : Ikcpcb) : Setting → Ikcpcb
  | .mtu n => (kcp.setmtu n.toInt).1
  | .nodelay on interval resend nc => kcp.setNodelay on.toInt interval.toInt resend.toInt nc.toInt
  | .wndsize sndwnd rcvwnd => kcp.wndsize sndwnd.toInt rcvwnd.toInt
  | .minrto rto => { kcp with rxMinrto := rto }

/-- A control block that was set up. -/
def configured (conv : UInt32) (l : List Setting) : Ikcpcb := l.foldl Setting.apply (create conv)

/-- What is called once a control block is set up. -/
inductive Call where
  | send (buffer : List UInt8)
  | recv (len : ℤ)
  | input (data : List UInt8)
  | update (current : UInt32)
  deriving DecidableEq, Repr

namespace Ikcpcb

variable {kcp : Ikcpcb} {conv : UInt32}

/-- The control block after a call, with the datagrams it sends. -/
def call (kcp : Ikcpcb) : Call → Ikcpcb × List (List UInt8)
  | .send buffer => ((kcp.send buffer).1, [])
  | .recv len => ((kcp.recv len).1, [])
  | .input data => ((kcp.input data).1, [])
  | .update current => kcp.update current

/-! ### Setting up -/

/-- A control block that was not used yet. -/
structure Fresh (conv : UInt32) (kcp : Ikcpcb) : Prop where
  send : kcp.sendSide = { una := 0, nxt := 0, nQue := 0, nBuf := 0, queue := [], buf := [] }
  receive : kcp.receiveSide =
    { nxt := 0, wnd := kcp.rcvWnd, nQue := 0, nBuf := 0, queue := [], buf := [] }
  acks : kcp.acklist = []
  rmtWnd : kcp.rmtWnd = IKCP_WND_RCV
  conv : kcp.conv = conv
  stream : kcp.stream = 0
  mtu : 50 ≤ kcp.mtu.toNat ∧ kcp.mtu.toNat < 2 ^ 31
  mss : kcp.mss.toNat + IKCP_OVERHEAD = kcp.mtu.toNat
  rcvWnd : kcp.rcvWnd.toNat < 2 ^ 31

theorem fresh_create (conv : UInt32) : Fresh conv (create conv) where
  send := rfl
  receive := rfl
  acks := rfl
  rmtWnd := rfl
  conv := rfl
  stream := rfl
  mtu := (by decide : 50 ≤ IKCP_MTU_DEF.toNat ∧ IKCP_MTU_DEF.toNat < 2 ^ 31)
  mss := (by decide : (IKCP_MTU_DEF - .ofNat IKCP_OVERHEAD).toNat + IKCP_OVERHEAD = IKCP_MTU_DEF.toNat)
  rcvWnd := (by decide : IKCP_WND_RCV.toNat < 2 ^ 31)

theorem toNat_ofInt_of_nonneg {n : ℤ} (h0 : 0 ≤ n) (h : n < 2 ^ 31) : (UInt32.ofInt n).toNat = n.toNat := by
  rw [UInt32.ofInt, UInt32.toNat_ofNat']
  omega

theorem Fresh.setmtu (h : Fresh conv kcp) (mtu : Int32) : Fresh conv (kcp.setmtu mtu.toInt).1 := by
  have hlt := mtu.toInt_lt
  unfold Ikcpcb.setmtu
  split_ifs with hsmall
  · exact h
  · rw [not_or, not_lt, not_lt] at hsmall
    have hm := toNat_ofInt_of_nonneg (n := mtu.toInt) (by omega) (by omega)
    refine ⟨h.send, h.receive, h.acks, h.rmtWnd, h.conv, h.stream, ?_, ?_, h.rcvWnd⟩
    · dsimp only
      omega
    · have hle : UInt32.ofNat IKCP_OVERHEAD ≤ UInt32.ofInt mtu.toInt := by
        rw [UInt32.le_iff_toNat_le, hm]
        show 24 ≤ mtu.toInt.toNat
        omega
      dsimp only
      rw [UInt32.toNat_sub_of_le _ _ hle, hm]
      show mtu.toInt.toNat - 24 + 24 = mtu.toInt.toNat
      omega

theorem Fresh.setNodelay (h : Fresh conv kcp) (nodelay interval resend nc : ℤ) :
    Fresh conv (kcp.setNodelay nodelay interval resend nc) := by
  unfold Ikcpcb.setNodelay
  dsimp only
  split_ifs
  all_goals exact ⟨h.send, h.receive, h.acks, h.rmtWnd, h.conv, h.stream, h.mtu, h.mss, h.rcvWnd⟩

theorem Fresh.setSndWnd (h : Fresh conv kcp) (sndwnd : ℤ) : Fresh conv (kcp.setSndWnd sndwnd) := by
  unfold Ikcpcb.setSndWnd
  split_ifs
  · exact ⟨h.send, h.receive, h.acks, h.rmtWnd, h.conv, h.stream, h.mtu, h.mss, h.rcvWnd⟩
  · exact h

theorem Fresh.setRcvWnd (h : Fresh conv kcp) (rcvwnd : Int32) :
    Fresh conv (kcp.setRcvWnd rcvwnd.toInt) := by
  have hlt := rcvwnd.toInt_lt
  unfold Ikcpcb.setRcvWnd
  split_ifs with hpos
  · have hn := toNat_ofInt_of_nonneg (n := rcvwnd.toInt) (by omega) (by omega)
    refine ⟨h.send, ?_, h.acks, h.rmtWnd, h.conv, h.stream, h.mtu, h.mss, ?_⟩
    · exact congrArg (fun r : ReceiveSide => { r with wnd := UInt32.ofInt rcvwnd.toInt }) h.receive
    · dsimp only
      omega
  · exact h

theorem fresh_configured (conv : UInt32) (l : List Setting) : Fresh conv (configured conv l) := by
  have hstep : ∀ (k : Ikcpcb) (s : Setting), Fresh conv k → Fresh conv (s.apply k) := fun k s hk => by
    cases s with
    | mtu n => exact hk.setmtu n
    | nodelay on interval resend nc => exact hk.setNodelay _ _ _ _
    | wndsize sndwnd rcvwnd => exact (hk.setSndWnd _).setRcvWnd rcvwnd
    | minrto rto => exact ⟨hk.send, hk.receive, hk.acks, hk.rmtWnd, hk.conv, hk.stream, hk.mtu, hk.mss, hk.rcvWnd⟩
  have hfold : ∀ (l : List Setting) (k : Ikcpcb), Fresh conv k → Fresh conv (l.foldl Setting.apply k) := by
    intro l
    induction l with
    | nil => exact fun k hk => hk
    | cons s l ih => exact fun k hk => ih _ (hstep k s hk)
  exact hfold l _ (fresh_create conv)

theorem Fresh.ok (h : Fresh conv kcp) (hwnd : kcp.rcvWnd.toNat ≤ 65535) : kcp.view.Ok where
  settings := ⟨h.mtu, h.mss, hwnd⟩
  send := by
    show kcp.sendSide.Ok
    rw [h.send]
    exact ⟨.nil, by simp, rfl, rfl, rfl⟩
  receive := by
    show kcp.receiveSide.Ok
    rw [h.receive]
    exact ⟨⟨h.rcvWnd, ⟨.nil, by simp⟩, Nat.zero_le _, rfl, rfl⟩, by simp⟩
  rmtWnd := by
    show kcp.rmtWnd.toNat ≤ 65535
    rw [h.rmtWnd]
    decide
  waiting := by
    show ∀ c ∈ kcp.sendSide.queue, _
    rw [h.send]
    simp
  numbered := by
    show ∀ i ∈ kcp.sendSide.buf, _
    rw [h.send]
    simp

/-! ### One call -/

theorem call_ok (h : kcp.view.Ok) (c : Call) : (kcp.call c).1.view.Ok := by
  cases c with
  | send buffer => exact send_ok h buffer
  | recv len => exact recv_view_ok h len
  | input data => exact input_view_ok h data
  | update current => exact update_ok h current

theorem input_settings (data : List UInt8) : (kcp.input data).1.settings = kcp.settings := by
  have hloop : ∀ turns maxack, (inputLoop turns kcp data maxack).1.settings = kcp.settings :=
    fun turns maxack => inputLoop_rule (P := fun k => k.settings = kcp.settings)
      (fun k b hk => (inputSeg_settings _).trans hk) turns data maxack rfl
  have hfast (k : Ikcpcb) (maxack : Option UInt32) : (k.parseMaxack maxack).settings = k.settings :=
    congrArg View.settings parseMaxack_view
  unfold input
  split_ifs
  · rfl
  · dsimp only
    split_ifs
    · exact hloop _ _
    · exact (congrArg View.settings openWindow_view).trans ((hfast _ _).trans (hloop _ _))
    · exact (hfast _ _).trans (hloop _ _)

theorem flush_settings : kcp.flush.1.settings = kcp.settings := by
  by_cases hup : kcp.updated = 0
  · rw [flush, if_pos hup]
  · exact congrArg View.settings (flush_view hup)

theorem update_settings (current : UInt32) : (kcp.update current).1.settings = kcp.settings := by
  rcases @update_cases kcp current with ⟨updated, tsFlush, heq⟩ | ⟨updated, tsFlush, heq⟩
  · rw [heq, flush_settings]
    rfl
  · rw [heq]
    rfl

theorem call_settings (c : Call) : (kcp.call c).1.settings = kcp.settings := by
  cases c with
  | send buffer => exact congrArg View.settings (send_view buffer)
  | recv len => exact congrArg View.settings (recv_view len)
  | input data => exact input_settings data
  | update current => exact update_settings current

/-! ### Lengths -/

/-- Numbers that increase along a list and stay below a bound are no more than the bound. -/
theorem length_le_of_pairwise {α : Type*} {f : α → ℕ} {l : List α} {n : ℕ}
    (hl : l.Pairwise fun a b => f a < f b) (hn : ∀ a ∈ l, f a < n) : l.length ≤ n := by
  have hnodup : (l.map f).Nodup := List.pairwise_map.mpr (hl.imp Nat.ne_of_lt)
  have hsub : l.map f ⊆ List.range n := fun m hm => by
    obtain ⟨a, ha, rfl⟩ := List.mem_map.mp hm
    exact List.mem_range.mpr (hn a ha)
  have hlen := (hnodup.subperm hsub).length_le
  rwa [List.length_map, List.length_range] at hlen

theorem length_sndBuf (h : kcp.view.Ok) : kcp.sndBuf.length ≤ 65535 := by
  have hlen := length_le_of_pairwise (f := fun i : Item => 65535 - ahead i.sn kcp.sndNxt) (n := 65535)
    (h.send.sorted.imp_of_mem fun {i j} hi hj hij => by
      have := h.send.window i hi
      show 65535 - ahead i.sn kcp.sndNxt < 65535 - ahead j.sn kcp.sndNxt
      have hlt : ahead j.sn kcp.sndNxt < ahead i.sn kcp.sndNxt := hij
      have hle : ahead i.sn kcp.sndNxt ≤ 65535 := this.2
      omega)
    fun i hi => by
      have hpos : 1 ≤ ahead i.sn kcp.sndNxt := (h.send.window i hi).1
      omega
  rwa [view, sendSide, List.length_map] at hlen

theorem length_rcvBuf (h : kcp.view.Ok) : kcp.rcvBuf.length ≤ kcp.rcvWnd.toNat := by
  have hlen := length_le_of_pairwise h.receive.early.1 h.receive.early.2
  rwa [view, receiveSide, List.length_map] at hlen

theorem length_rcvQueue (h : kcp.view.Ok) : kcp.rcvQueue.length ≤ kcp.rcvWnd.toNat := by
  have hlen := h.receive.full
  rwa [view, receiveSide, List.length_map] at hlen

/-- The counters of a control block say how long its queues are. -/
structure Counted (kcp : Ikcpcb) : Prop where
  nsndQue : kcp.nsndQue = .ofNat kcp.sndQueue.length
  nsndBuf : kcp.nsndBuf.toNat = kcp.sndBuf.length
  nrcvQue : kcp.nrcvQue.toNat = kcp.rcvQueue.length
  nrcvBuf : kcp.nrcvBuf.toNat = kcp.rcvBuf.length

theorem counted_of_ok (h : kcp.view.Ok) : kcp.Counted := by
  have hnumber : ∀ {n : UInt32} {m : ℕ}, n = .ofNat m → m ≤ 65535 → n.toNat = m := fun hn hm => by
    rw [hn, UInt32.toNat_ofNat']
    omega
  have hwnd : kcp.rcvWnd.toNat ≤ 65535 := h.settings.rcvWnd
  have hq := h.send.nQue
  have hb := h.send.nBuf
  have hrq := h.receive.nQue
  have hrb := h.receive.nBuf
  simp only [view, sendSide, receiveSide, List.length_map] at hq hb hrq hrb
  exact ⟨hq, hnumber hb (length_sndBuf h), hnumber hrq ((length_rcvQueue h).trans hwnd),
    hnumber hrb ((length_rcvBuf h).trans hwnd)⟩

/-! ### Runs -/

/-- A datagram that a call sends is a row of segments of the conversation. -/
theorem call_datagram (h : kcp.view.Ok) {c : Call} {d : List UInt8} (hd : d ∈ (kcp.call c).2) :
    d.length ≤ kcp.mtu.toNat ∧ Carries kcp.conv (fun _ => True) d := by
  cases c with
  | send buffer => cases hd
  | recv len => cases hd
  | input data => cases hd
  | update current =>
    rw [call] at hd
    rcases @update_cases kcp current with ⟨updated, tsFlush, heq⟩ | ⟨updated, tsFlush, heq⟩
    · rw [heq] at hd
      have hset : (kcp.setTimes current updated tsFlush).view.Ok := h
      exact ⟨flush_within hset d hd, (flush_carries hset hd).imp fun _ _ => trivial⟩
    · rw [heq] at hd
      cases hd
theorem final_ok {l : List Setting} (hwnd : (configured conv l).rcvWnd.toNat ≤ 65535) (calls : List Call) :
    (Runs.final call (configured conv l) calls).view.Ok :=
  Runs.Steps.invariant (P := fun k : Ikcpcb => k.view.Ok) (fun _ c h _ => call_ok h c)
    (Runs.steps_true _ calls) ((fresh_configured conv l).ok hwnd)

/-- After any calls, whatever bytes were given to `ikcp_input`, the queues of a control block are
bounded, its counters are their lengths, and the numbers lie in their windows. -/
theorem run_bounded {l : List Setting} (hwnd : (configured conv l).rcvWnd.toNat ≤ 65535)
    (calls : List Call) :
    let kcp := Runs.final call (configured conv l) calls
    kcp.view.Ok ∧ kcp.Counted ∧ kcp.sndBuf.length ≤ 65535 ∧ kcp.rcvBuf.length ≤ kcp.rcvWnd.toNat ∧
      kcp.rcvQueue.length ≤ kcp.rcvWnd.toNat := by
  have h := final_ok hwnd calls
  exact ⟨h, counted_of_ok h, length_sndBuf h, length_rcvBuf h, length_rcvQueue h⟩

theorem run_bounded_noise :
    let kcp := Runs.final call (configured 7 [.wndsize 4 4])
      [.input (List.replicate 30 81), .send [1, 2], .update 5, .input [7, 0, 0, 0, 82], .update 200]
    kcp.view.Ok ∧ kcp.Counted ∧ kcp.sndBuf.length ≤ 65535 ∧ kcp.rcvBuf.length ≤ kcp.rcvWnd.toNat ∧
      kcp.rcvQueue.length ≤ kcp.rcvWnd.toNat :=
  run_bounded (by decide) [.input (List.replicate 30 81), .send [1, 2], .update 5, .input [7, 0, 0, 0, 82], .update 200]

/-- Whatever a control block goes through, every datagram that it sends fits in the `mtu`, is taken
without an error by all control blocks of the conversation, and not at all by others. -/
theorem run_datagrams {l : List Setting} (hwnd : (configured conv l).rcvWnd.toNat ≤ 65535)
    (calls : List Call) {x : Call × List (List UInt8)}
    (hx : x ∈ Runs.trace call (configured conv l) calls) {d : List UInt8} (hd : d ∈ x.2) :
    d ≠ [] ∧ d.length ≤ (configured conv l).mtu.toNat ∧
      (∀ k : Ikcpcb, k.conv = conv → (k.input d).2 = 0) ∧
      ∀ k : Ikcpcb, k.conv ≠ conv → k.input d = (k, -1) := by
  obtain ⟨t, ⟨hok, hset⟩, hout⟩ := Runs.exists_of_mem_trace_invariant
    (P := fun k => k.view.Ok ∧ k.settings = (configured conv l).settings)
    (fun k c hk => ⟨call_ok hk.1 c, (call_settings c).trans hk.2⟩)
    ⟨(fresh_configured conv l).ok hwnd, rfl⟩ hx
  obtain ⟨hlen, segs, hne, rfl, hsegs⟩ := call_datagram hok (hout ▸ hd)
  have hconv : t.conv = conv := (congrArg Settings.conv hset).trans (fresh_configured conv l).conv
  have hsend : ∀ seg ∈ segs, Sendable conv seg := fun seg hseg => hconv ▸ (hsegs seg hseg).1
  refine ⟨fun hempty => hne (row_eq_nil.mp hempty), ?_, fun k hk => ?_, fun k hk => input_other hne hsend hk⟩
  · rwa [show t.mtu = (configured conv l).mtu from congrArg Settings.mtu hset] at hlen
  · exact (input_row hne (hk ▸ hsend)).2

/-- The second flush of a control block sends a message of one byte. -/
theorem run_datagrams_second :
    let d : List UInt8 := [7, 0, 0, 0, 81, 0, 32, 0, 100, 0, 0, 0, 0, 0, 0, 0, 0, 0, 0, 0, 1, 0, 0, 0, 9]
    d ≠ [] ∧ d.length ≤ (configured 7 []).mtu.toNat ∧ (∀ k : Ikcpcb, k.conv = 7 → (k.input d).2 = 0) ∧
      ∀ k : Ikcpcb, k.conv ≠ 7 → k.input d = (k, -1) :=
  @run_datagrams 7 [] (by decide) [.send [9], .update 0, .update 100]
    (.update 100, [[7, 0, 0, 0, 81, 0, 32, 0, 100, 0, 0, 0, 0, 0, 0, 0, 0, 0, 0, 0, 1, 0, 0, 0, 9]])
    (by decide) _ (by decide)

end Ikcpcb

end KkLicode.Ikcp
