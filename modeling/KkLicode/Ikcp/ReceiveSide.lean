import KkLicode.Ikcp.Messages

/-! The receiving side of a control block: the segments that are in order and wait
for the application, and those that came ahead of their turn. The latter are sorted
by number and lie in the window; the first of them is not the next one unless the
queue is full. This holds whatever arrives. -/

namespace KkLicode.Ikcp

open Base Serial32

namespace ReceiveSide

variable {r : ReceiveSide}

/-- The segments ahead of their turn are sorted and lie in the window. -/
def Early (nxt wnd : UInt32) (buf : List Item) : Prop :=
  (buf.Pairwise fun i j => ahead nxt i.sn < ahead nxt j.sn) ∧ ∀ i ∈ buf, ahead nxt i.sn < wnd.toNat

/-- The invariant in the middle of a call, before available data is moved. -/
structure Fits (r : ReceiveSide) : Prop where
  wnd : r.wnd.toNat < 2 ^ 31
  early : Early r.nxt r.wnd r.buf
  full : r.queue.length ≤ r.wnd.toNat
  nQue : r.nQue = .ofNat r.queue.length
  nBuf : r.nBuf = .ofNat r.buf.length

structure Ok (r : ReceiveSide) : Prop extends Fits r where
  moved : r.nQue < r.wnd → ∀ i ∈ r.buf, i.sn ≠ r.nxt

/-- The side when the first segment ahead was moved to the queue. -/
def move (r : ReceiveSide) (i : Item) (buf : List Item) : ReceiveSide :=
  { nxt := r.nxt + 1, wnd := r.wnd, nQue := r.nQue + 1, nBuf := r.nBuf - 1
    queue := r.queue ++ [i.content], buf := buf }

theorem Early.tail {nxt wnd : UInt32} {i : Item} {buf : List Item}
    (h : Early nxt wnd (i :: buf)) : Early (nxt + 1) wnd buf := by
  have hpos : ∀ j ∈ buf, ahead (nxt + 1) j.sn + 1 = ahead nxt j.sn := fun j hj => add_one_ahead
    (Nat.ne_of_gt (Nat.lt_of_le_of_lt (Nat.zero_le _) (List.rel_of_pairwise_cons h.1 hj)))
  constructor
  · refine (List.Pairwise.of_cons h.1).imp_of_mem fun {j k} hj hk hjk => ?_
    have := hpos j hj
    have := hpos k hk
    omega
  · intro j hj
    have := hpos j hj
    have := h.2 j (List.mem_cons_of_mem _ hj)
    omega

theorem Fits.room (h : r.Fits) (hroom : r.nQue < r.wnd) : r.queue.length < r.wnd.toNat := by
  have hlt := UInt32.lt_iff_toNat_lt.mp hroom
  have := h.wnd
  have := h.full
  rw [h.nQue, UInt32.toNat_ofNat'] at hlt
  omega

theorem Fits.move (h : r.Fits) {i : Item} {buf : List Item}
    (hbuf : r.buf = i :: buf) (hroom : r.nQue < r.wnd) : (r.move i buf).Fits where
  wnd := h.wnd
  early := (hbuf ▸ h.early : Early r.nxt r.wnd (i :: buf)).tail
  full := by
    show (r.queue ++ [i.content]).length ≤ r.wnd.toNat
    rw [List.length_append]
    exact h.room hroom
  nQue := by
    show r.nQue + 1 = .ofNat (r.queue ++ [i.content]).length
    rw [h.nQue, List.length_append, UInt32.ofNat_add]
    rfl
  nBuf := by
    show r.nBuf - 1 = .ofNat buf.length
    rw [h.nBuf, hbuf, List.length_cons, UInt32.ofNat_add]
    exact UInt32.add_sub_cancel _ _

/-- The side when a segment was put among those ahead of their turn. -/
def put (r : ReceiveSide) (buf : List Item) : ReceiveSide :=
  { r with buf := buf, nBuf := .ofNat buf.length }

theorem Fits.put (h : r.Fits) {older newer : List Item} {x : Item}
    (hbuf : r.buf = older ++ newer) (hx : ahead r.nxt x.sn < r.wnd.toNat)
    (holder : ∀ i ∈ older, ahead r.nxt i.sn < ahead r.nxt x.sn)
    (hnewer : ∀ i ∈ newer, ahead r.nxt x.sn < ahead r.nxt i.sn) :
    (r.put (older ++ x :: newer)).Fits where
  wnd := h.wnd
  early := by
    have hold : Early r.nxt r.wnd (older ++ newer) := hbuf ▸ h.early
    obtain ⟨ho, hn, hon⟩ := List.pairwise_append.mp hold.1
    constructor
    · refine List.pairwise_append.mpr ⟨ho, List.pairwise_cons.mpr ⟨hnewer, hn⟩, fun i hi j hj => ?_⟩
      rcases List.mem_cons.mp hj with rfl | hj
      · exact holder i hi
      · exact hon i hi j hj
    · intro i hi
      rcases List.mem_append.mp hi with hi | hi
      · exact hold.2 i (List.mem_append_left _ hi)
      · rcases List.mem_cons.mp hi with rfl | hi
        · exact hx
        · exact hold.2 i (List.mem_append_right _ hi)
  full := h.full
  nQue := h.nQue
  nBuf := rfl

/-- The numbers of the window, as they are accepted. -/
theorem accepts_iff {nxt wnd sn : UInt32} (hwnd : wnd.toNat < 2 ^ 31) :
    ¬(itimediff sn (nxt + wnd) ≥ 0 ∨ itimediff sn nxt < 0) ↔ ahead nxt sn < wnd.toNat := by
  have h1 := @diff_nonneg (nxt + wnd) sn
  have h2 := @diff_nonneg nxt sn
  have hbase := ahead_base nxt (nxt + wnd) sn
  have hw : ahead nxt (nxt + wnd) = wnd.toNat := by
    rw [ahead, UInt32.add_comm, UInt32.add_sub_cancel]
  have := ahead_lt nxt sn
  rw [hw] at hbase
  simp only [itimediff, ge_iff_le, h1, not_or]
  omega

end ReceiveSide

namespace Ikcpcb

variable {kcp : Ikcpcb} {sn ts una : UInt32} {seg : IkcpSeg}

/-! ### A segment ahead of its turn -/

/-- The search from the last segment on ends at one with the same number, or between the segments
that are older and those that are newer. -/
theorem insertBack_cases {nxt : UInt32} (hseg : ahead nxt seg.sn < 2 ^ 31) {l : List IkcpSeg}
    (hsorted : l.Pairwise fun s t => ahead nxt t.sn < ahead nxt s.sn)
    (hhalf : ∀ s ∈ l, ahead nxt s.sn < 2 ^ 31) :
    ((∃ s ∈ l, s.sn = seg.sn) ∧ insertBack seg l = l) ∨
      ∃ newer older, l = newer ++ older ∧ insertBack seg l = newer ++ seg :: older ∧
        (∀ s ∈ newer, ahead nxt seg.sn < ahead nxt s.sn) ∧
        ∀ s ∈ older, ahead nxt s.sn < ahead nxt seg.sn := by
  induction l with
  | nil => exact .inr ⟨[], [], rfl, rfl, by simp, by simp⟩
  | cons t l ih =>
    rw [insertBack]
    have hrest : ∀ s ∈ l, ahead nxt s.sn < ahead nxt t.sn := (List.pairwise_cons.mp hsorted).1
    split_ifs with heq hpos
    · exact .inl ⟨⟨t, List.mem_cons_self, heq⟩, rfl⟩
    · have ht := (diff_pos_iff (hhalf t List.mem_cons_self) hseg).mp hpos
      refine .inr ⟨[], t :: l, rfl, rfl, by simp, fun s hs => ?_⟩
      rcases List.mem_cons.mp hs with rfl | hs
      · exact ht
      · exact Nat.lt_trans (hrest s hs) ht
    · have hne : ahead nxt t.sn ≠ ahead nxt seg.sn := fun h => heq (ahead_injective h)
      have hle : ¬ahead nxt t.sn < ahead nxt seg.sn := fun h => hpos ((diff_pos_iff (hhalf t List.mem_cons_self) hseg).mpr h)
      rcases ih (List.Pairwise.of_cons hsorted) fun s hs => hhalf s (List.mem_cons_of_mem _ hs) with
        ⟨⟨s, hs, hsn⟩, hl⟩ | ⟨newer, older, rfl, hl, hnewer, holder⟩
      · exact .inl ⟨⟨s, List.mem_cons_of_mem _ hs, hsn⟩, by rw [hl]⟩
      · refine .inr ⟨t :: newer, older, rfl, by rw [hl]; rfl, fun s hs => ?_, holder⟩
        rcases List.mem_cons.mp hs with rfl | hs
        · omega
        · exact hnewer s hs

/-- The place of a segment in `rcv_buf`. -/
theorem insert_cases {nxt : UInt32} (hseg : ahead nxt seg.sn < 2 ^ 31) {l : List IkcpSeg}
    (hsorted : l.Pairwise fun s t => ahead nxt s.sn < ahead nxt t.sn)
    (hhalf : ∀ s ∈ l, ahead nxt s.sn < 2 ^ 31) :
    ((∃ s ∈ l, s.sn = seg.sn) ∧ (insertBack seg l.reverse).reverse = l) ∨
      ∃ older newer, l = older ++ newer ∧ (insertBack seg l.reverse).reverse = older ++ seg :: newer ∧
        (∀ s ∈ older, ahead nxt s.sn < ahead nxt seg.sn) ∧
        ∀ s ∈ newer, ahead nxt seg.sn < ahead nxt s.sn := by
  rcases insertBack_cases hseg (List.pairwise_reverse.mpr hsorted) fun s hs =>
      hhalf s (List.mem_reverse.mp hs) with ⟨⟨s, hs, hsn⟩, hl⟩ | ⟨newer, older, heq, hl, hnewer, holder⟩
  · exact .inl ⟨⟨s, List.mem_reverse.mp hs, hsn⟩, by rw [hl, List.reverse_reverse]⟩
  · refine .inr ⟨older.reverse, newer.reverse, ?_, ?_, ?_, ?_⟩
    · rw [← List.reverse_append, ← heq, List.reverse_reverse]
    · rw [hl, List.reverse_append, List.reverse_cons, List.append_assoc, List.singleton_append]
    · exact fun s hs => holder s (List.mem_reverse.mp hs)
    · exact fun s hs => hnewer s (List.mem_reverse.mp hs)

/-- Where a segment of the window goes; one that is known goes nowhere. -/
theorem insertSeg_receiveSide (h : kcp.receiveSide.Fits) (hseg : ahead kcp.rcvNxt seg.sn < kcp.rcvWnd.toNat) :
    ((∃ i ∈ kcp.receiveSide.buf, i.sn = seg.sn) ∧
        (kcp.insertSeg seg).receiveSide = kcp.receiveSide) ∨
      ∃ older newer, kcp.receiveSide.buf = older ++ newer ∧
        (kcp.insertSeg seg).receiveSide = kcp.receiveSide.put (older ++ seg.item :: newer) ∧
        (∀ i ∈ older, ahead kcp.rcvNxt i.sn < ahead kcp.rcvNxt seg.sn) ∧
        ∀ i ∈ newer, ahead kcp.rcvNxt seg.sn < ahead kcp.rcvNxt i.sn := by
  have hwnd : kcp.rcvWnd.toNat < 2 ^ 31 := h.wnd
  have hsorted := List.pairwise_map.mp h.early.1
  have hhalf : ∀ s ∈ kcp.rcvBuf, ahead kcp.rcvNxt s.sn < 2 ^ 31 := fun s hs =>
    Nat.lt_trans (h.early.2 _ (List.mem_map_of_mem hs)) hwnd
  have hcount : kcp.nrcvBuf = .ofNat kcp.rcvBuf.length := by
    have := h.nBuf
    rwa [receiveSide, List.length_map] at this
  rcases insert_cases (Nat.lt_trans hseg hwnd) hsorted hhalf with
    ⟨⟨s, hs, hsn⟩, hl⟩ | ⟨older, newer, hbuf, hl, holder, hnewer⟩
  · refine .inl ⟨⟨s.item, List.mem_map_of_mem hs, hsn⟩, ?_⟩
    simp only [insertSeg, receiveSide, hl, Nat.sub_self]
    rw [show UInt32.ofNat 0 = 0 from rfl, UInt32.add_zero]
  · refine .inr ⟨older.map (·.item), newer.map (·.item), ?_, ?_, ?_, ?_⟩
    · rw [receiveSide, hbuf, List.map_append]
    · have hlen : (older ++ seg :: newer).length = kcp.rcvBuf.length + 1 := by
        rw [hbuf, List.length_append, List.length_append, List.length_cons, Nat.add_assoc]
      have hsum : kcp.nrcvBuf + .ofNat ((older ++ seg :: newer).length - kcp.rcvBuf.length) =
          .ofNat (older ++ seg :: newer).length := by
        rw [hlen, Nat.add_sub_cancel_left, hcount, ← UInt32.ofNat_add]
      simp only [insertSeg, receiveSide, hl, hsum, ReceiveSide.put, List.map_append, List.map_cons]
      simp only [List.length_append, List.length_cons, List.length_map]
    · exact List.forall_mem_map.mpr holder
    · exact List.forall_mem_map.mpr hnewer

theorem insertSeg_fits (h : kcp.receiveSide.Fits) (hseg : ahead kcp.rcvNxt seg.sn < kcp.rcvWnd.toNat) :
    (kcp.insertSeg seg).receiveSide.Fits := by
  rcases insertSeg_receiveSide h hseg with ⟨-, hside⟩ | ⟨older, newer, hbuf, hside, holder, hnewer⟩
  · rwa [hside]
  · rw [hside]
    exact h.put hbuf hseg holder hnewer

/-! ### Moving available data -/

theorem moveFirst_receiveSide (rest : List IkcpSeg) :
    (kcp.moveFirst seg rest).receiveSide = kcp.receiveSide.move seg.item (rest.map (·.item)) := by
  simp only [receiveSide, moveFirst, ReceiveSide.move, List.map_append, List.map_singleton]
  rfl

/-- What every move keeps, moving all that is available keeps. -/
theorem moveLoop_rule {P : ReceiveSide → Prop}
    (hstep : ∀ r i buf, P r → r.buf = i :: buf → i.sn = r.nxt → r.nQue < r.wnd → P (r.move i buf))
    {l : List IkcpSeg} (hl : kcp.rcvBuf = l) (h : P kcp.receiveSide) :
    P (moveLoop l kcp).receiveSide := by
  induction l generalizing kcp with
  | nil => exact h
  | cons seg l ih =>
    rw [moveLoop]
    split_ifs with hmove
    · refine ih rfl ?_
      rw [moveFirst_receiveSide]
      exact hstep _ _ _ h (by rw [receiveSide, hl]; rfl) hmove.1 hmove.2
    · exact h

theorem moveAvailable_rule {P : ReceiveSide → Prop}
    (hstep : ∀ r i buf, P r → r.buf = i :: buf → i.sn = r.nxt → r.nQue < r.wnd → P (r.move i buf))
    (h : P kcp.receiveSide) : P kcp.moveAvailable.receiveSide := moveLoop_rule hstep rfl h

/-- The loop ends where the first segment is not the next one, or the queue is full. -/
theorem moveLoop_stops {l : List IkcpSeg} (hl : kcp.rcvBuf = l) {seg : IkcpSeg} {rest : List IkcpSeg}
    (h : (moveLoop l kcp).rcvBuf = seg :: rest) :
    ¬(seg.sn = (moveLoop l kcp).rcvNxt ∧ (moveLoop l kcp).nrcvQue < (moveLoop l kcp).rcvWnd) := by
  induction l generalizing kcp with
  | nil =>
    rw [moveLoop, hl] at h
    cases h
  | cons t l ih =>
    rw [moveLoop] at h ⊢
    split_ifs at h ⊢ with hmove
    · exact ih rfl h
    · rw [hl] at h
      cases h
      exact hmove

theorem moveAvailable_ok (h : kcp.receiveSide.Fits) : kcp.moveAvailable.receiveSide.Ok where
  toFits := moveAvailable_rule (fun _ _ _ hr hbuf _ hroom => hr.move hbuf hroom) h
  moved hroom i hi hnxt := by
    have hfits : kcp.moveAvailable.receiveSide.Fits :=
      moveAvailable_rule (fun _ _ _ hr hbuf _ hroom => hr.move hbuf hroom) h
    obtain ⟨seg, hseg, rfl⟩ := List.mem_map.mp hi
    cases hbuf : kcp.moveAvailable.rcvBuf with
    | nil => rw [hbuf] at hseg; cases hseg
    | cons t rest =>
      have hstop := moveLoop_stops rfl hbuf
      have hzero : ahead kcp.moveAvailable.rcvNxt seg.sn = 0 := ahead_eq_zero.mpr hnxt.symm
      have hsorted := hfits.early.1
      rw [receiveSide, hbuf, List.map_cons, List.pairwise_cons] at hsorted
      rcases List.mem_cons.mp (hbuf ▸ hseg) with rfl | hseg
      · exact hstop ⟨hnxt, hroom⟩
      · have := hsorted.1 _ (List.mem_map_of_mem hseg)
        exact absurd this (by rw [show seg.item.sn = seg.sn from rfl, hzero]; exact Nat.not_lt_zero _)

theorem parseData_ok (h : kcp.receiveSide.Ok) : (kcp.parseData seg).receiveSide.Ok := by
  rw [parseData]
  split_ifs with hout
  · exact h
  · exact moveAvailable_ok (insertSeg_fits h.toFits ((ReceiveSide.accepts_iff h.wnd).mp hout))

theorem inputPush_ok (h : kcp.receiveSide.Ok) : (kcp.inputPush seg).receiveSide.Ok := by
  unfold inputPush
  dsimp only
  split_ifs
  · exact parseData_ok h
  · exact h
  · exact h

/-! ### The application takes a message -/

theorem removeMessage_fits (h : kcp.receiveSide.Fits) : kcp.removeMessage.receiveSide.Fits := by
  have happ := mergeFragment_append kcp.rcvQueue
  have hlen : kcp.rcvQueue.length =
      (mergeFragment kcp.rcvQueue).2.length + (mergeFragment kcp.rcvQueue).1.length := by
    conv_lhs => rw [← happ, List.length_append, Nat.add_comm]
  have hcount : kcp.nrcvQue = .ofNat kcp.rcvQueue.length := by
    have := h.nQue
    rwa [receiveSide, List.length_map] at this
  constructor
  · exact h.wnd
  · exact h.early
  · have := h.full
    simp only [receiveSide, removeMessage, List.length_map] at this ⊢
    omega
  · simp only [receiveSide, removeMessage, List.length_map]
    rw [hcount, hlen, UInt32.ofNat_add]
    exact UInt32.add_sub_cancel _ _
  · exact h.nBuf

theorem recv_ok (h : kcp.receiveSide.Ok) (len : ℤ) : (kcp.recv len).1.receiveSide.Ok := by
  unfold recv
  split_ifs
  · exact h
  · exact h
  · exact h
  · rw [recover_receiveSide]
    exact moveAvailable_ok h.toFits
  · rw [recover_receiveSide]
    exact moveAvailable_ok (removeMessage_fits h.toFits)

end Ikcpcb

end KkLicode.Ikcp
