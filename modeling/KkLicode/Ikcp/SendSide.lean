import KkLicode.Ikcp.View

/-! The sending side of a control block: the segments that wait for a number, and
those that have one and are not acknowledged. The numbers increase along
`snd_buf`, up to `snd_nxt`, and never span more than 65535, the largest window
that a head can tell. This holds whatever arrives. -/

namespace KkLicode.Ikcp

open Base Serial32

namespace SendSide

variable {s : SendSide}

/-- The oldest number that is not acknowledged. -/
def oldest (nxt : UInt32) : List Item → UInt32
  | [] => nxt
  | i :: _ => i.sn

structure Ok (s : SendSide) : Prop where
  sorted : s.buf.Pairwise fun i j => ahead j.sn s.nxt < ahead i.sn s.nxt
  window : ∀ i ∈ s.buf, 1 ≤ ahead i.sn s.nxt ∧ ahead i.sn s.nxt ≤ 65535
  una : s.una = oldest s.nxt s.buf
  nQue : s.nQue = .ofNat s.queue.length
  nBuf : s.nBuf = .ofNat s.buf.length

/-- The side when segments were released. -/
def release (s : SendSide) (buf : List Item) : SendSide :=
  { s with buf := buf, una := oldest s.nxt buf, nBuf := .ofNat buf.length }

theorem Ok.release (h : s.Ok) {buf : List Item} (hbuf : buf.Sublist s.buf) :
    (s.release buf).Ok where
  sorted := h.sorted.sublist hbuf
  window i hi := h.window i (hbuf.subset hi)
  una := rfl
  nQue := h.nQue
  nBuf := rfl

theorem Ok.ahead_una (h : s.Ok) : ahead s.una s.nxt ≤ 65535 := by
  rw [h.una]
  cases hbuf : s.buf with
  | nil =>
    rw [oldest, ahead_self]
    omega
  | cons i l => exact (h.window i (hbuf ▸ List.mem_cons_self)).2

/-- The side when the first segment that waits got the next number. -/
def number (s : SendSide) (i : Item) (queue : List Content) : SendSide :=
  { una := s.una, nxt := s.nxt + 1, nQue := s.nQue - 1, nBuf := s.nBuf + 1, queue := queue
    buf := s.buf ++ [i] }

theorem Ok.ahead_succ (h : s.Ok) {i : Item} (hi : i ∈ s.buf) :
    ahead i.sn (s.nxt + 1) = ahead i.sn s.nxt + 1 :=
  ahead_add_one (by have := (h.window i hi).2; omega)

theorem ahead_nxt_succ (a : UInt32) : ahead a (a + 1) = 1 := by
  rw [ahead_add_one, ahead_self]
  rw [ahead_self]
  omega

/-- The oldest segment is the farthest. -/
theorem Ok.ahead_le (h : s.Ok) {i : Item} (hi : i ∈ s.buf) : ahead i.sn s.nxt ≤ ahead s.una s.nxt := by
  rw [h.una]
  cases hbuf : s.buf with
  | nil => rw [hbuf] at hi; cases hi
  | cons j l =>
    show ahead i.sn s.nxt ≤ ahead j.sn s.nxt
    rcases List.mem_cons.mp (hbuf ▸ hi) with rfl | hi
    · exact Nat.le_refl _
    · have hsorted : (j :: l).Pairwise fun i j => ahead j.sn s.nxt < ahead i.sn s.nxt := hbuf ▸ h.sorted
      exact Nat.le_of_lt (List.rel_of_pairwise_cons hsorted hi)

theorem Ok.number (h : s.Ok) {x : Item} {queue : List Content} (hx : x.sn = s.nxt)
    (hq : s.queue = x.content :: queue) (hroom : ahead s.una s.nxt < 65535) : (s.number x queue).Ok where
  sorted := by
    refine List.pairwise_append.mpr ⟨?_, List.pairwise_singleton _ _, ?_⟩
    · refine h.sorted.imp_of_mem fun {i j} hi hj hij => ?_
      show ahead j.sn (s.nxt + 1) < ahead i.sn (s.nxt + 1)
      rw [h.ahead_succ hi, h.ahead_succ hj]
      omega
    · intro i hi j hj
      obtain rfl := List.mem_singleton.mp hj
      show ahead j.sn (s.nxt + 1) < ahead i.sn (s.nxt + 1)
      rw [h.ahead_succ hi, hx, ahead_nxt_succ]
      have := (h.window i hi).1
      omega
  window i hi := by
    show 1 ≤ ahead i.sn (s.nxt + 1) ∧ ahead i.sn (s.nxt + 1) ≤ 65535
    rcases List.mem_append.mp hi with hi | hi
    · have := h.ahead_le hi
      rw [h.ahead_succ hi]
      omega
    · obtain rfl := List.mem_singleton.mp hi
      rw [hx, ahead_nxt_succ]
      omega
  una := by
    show s.una = oldest (s.nxt + 1) (s.buf ++ [x])
    rw [h.una]
    cases s.buf with
    | nil => exact hx.symm
    | cons i l => rfl
  nQue := by
    show s.nQue - 1 = _
    rw [h.nQue, hq, List.length_cons, UInt32.ofNat_add]
    exact UInt32.add_sub_cancel _ _
  nBuf := by
    show s.nBuf + 1 = .ofNat (s.buf ++ [x]).length
    rw [h.nBuf, List.length_append, UInt32.ofNat_add]
    rfl

end SendSide

namespace Ikcpcb

variable {kcp : Ikcpcb} {sn ts una rtt : UInt32} {seg : IkcpSeg}

/-! ### Acknowledgements -/

theorem removeAcked_sublist (l : List IkcpSeg) : (removeAcked sn l).Sublist l := by
  induction l with
  | nil => exact List.Sublist.refl _
  | cons seg l ih =>
    rw [removeAcked]
    split_ifs
    · exact List.sublist_cons_self _ _
    · exact List.Sublist.refl _
    · exact ih.cons_cons _

/-- Only a segment with the number is removed. -/
theorem mem_removeAcked {l : List IkcpSeg} (h : seg ∈ l) (hne : seg.sn ≠ sn) : seg ∈ removeAcked sn l := by
  induction l with
  | nil => cases h
  | cons t l ih =>
    rw [removeAcked]
    split_ifs with heq
    · rcases List.mem_cons.mp h with rfl | h
      · exact absurd heq.symm hne
      · exact h
    · exact h
    · rcases List.mem_cons.mp h with rfl | h
      · exact List.mem_cons_self
      · exact List.mem_cons_of_mem _ (ih h)

theorem shrinkBuf_una : kcp.shrinkBuf.sndUna = SendSide.oldest kcp.sndNxt (kcp.sndBuf.map (·.item)) := by
  rw [shrinkBuf]
  cases kcp.sndBuf <;> rfl

/-- The counter goes down by what was taken out. -/
theorem nsndBuf_sub (h : kcp.sendSide.Ok) {rest : List IkcpSeg} (hrest : rest.Sublist kcp.sndBuf) :
    kcp.nsndBuf - UInt32.ofNat (kcp.sndBuf.length - rest.length) = .ofNat (rest.map (·.item)).length := by
  have hlen := hrest.length_le
  have hn : kcp.nsndBuf = .ofNat kcp.sndBuf.length := by
    have := h.nBuf
    rwa [sendSide, List.length_map] at this
  have hsum : kcp.sndBuf.length = rest.length + (kcp.sndBuf.length - rest.length) := by omega
  rw [hn, List.length_map]
  conv_lhs => rw [hsum, UInt32.ofNat_add, Nat.add_sub_cancel_left]
  exact UInt32.add_sub_cancel _ _

theorem release_sendSide (h : kcp.sendSide.Ok) {rest : List IkcpSeg} (hrest : rest.Sublist kcp.sndBuf) :
    { kcp with
      sndBuf := rest
      nsndBuf := kcp.nsndBuf - UInt32.ofNat (kcp.sndBuf.length - rest.length) }.shrinkBuf.sendSide =
        kcp.sendSide.release (rest.map (·.item)) := by
  rw [sendSide, shrinkBuf_una, SendSide.release]
  simp only [shrinkBuf, nsndBuf_sub h hrest, sendSide]

/-- What a cumulative acknowledgement releases. -/
theorem parseUna_shrinkBuf (h : kcp.sendSide.Ok) :
    (kcp.parseUna una).shrinkBuf.sendSide = kcp.sendSide.release
      ((kcp.sndBuf.dropWhile fun seg => itimediff una seg.sn > 0).map (·.item)) :=
  release_sendSide h (List.dropWhile_sublist _)

/-- What the acknowledgement of one segment releases. -/
theorem parseAck_shrinkBuf (h : kcp.sendSide.Ok) :
    (kcp.parseAck sn).shrinkBuf.sendSide = kcp.sendSide.release
      ((if kcp.InFlight sn then removeAcked sn kcp.sndBuf else kcp.sndBuf).map (·.item)) := by
  rw [parseAck]
  split_ifs
  · exact release_sendSide h (removeAcked_sublist _)
  · have := release_sendSide h (List.Sublist.refl kcp.sndBuf)
    rwa [Nat.sub_self, show UInt32.ofNat 0 = 0 from rfl, UInt32.sub_zero] at this

end Ikcpcb

end KkLicode.Ikcp
