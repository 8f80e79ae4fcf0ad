import KkLicode.Ikcp.View

/-! Messages and their fragments. A message is cut into at most 255 fragments, which
are numbered down to zero; the receiving end puts it together again when all its
fragments are there. From a queue that begins with the fragments of messages,
`ikcp_recv` takes the first message or nothing. -/

namespace KkLicode.Ikcp

/-- The fragments of one message: the number of each is how many follow it. -/
def Whole : List Content → Prop
  | [] => False
  | c :: l => c.1.toNat = l.length ∧ (l = [] ∨ Whole l)

def message (l : List Content) : List UInt8 := l.flatMap (·.2)

namespace Ikcpcb

variable {kcp : Ikcpcb} {buffer : List UInt8} {mss : ℕ}

/-- The fragments of a message. -/
def cut (mss : ℕ) (buffer : List UInt8) : List Content :=
  (fragments mss 0 (fragmentCount mss buffer.length) buffer).map (·.content)

@[simp] theorem length_fragments (mss : ℕ) (stream : ℤ) (count : ℕ) (buffer : List UInt8) :
    (fragments mss stream count buffer).length = count := by
  induction count generalizing buffer with
  | zero => rfl
  | succ count ih => rw [fragments, List.length_cons, ih]

/-- Every fragment fits: its number in a byte, its data in the `mss`. -/
theorem fragments_fit {stream : ℤ} {count : ℕ} (hcount : count ≤ 256) {seg : IkcpSeg}
    (h : seg ∈ fragments mss stream count buffer) : seg.frg.toNat < 256 ∧ seg.data.length ≤ mss := by
  induction count generalizing buffer with
  | zero => cases h
  | succ count ih =>
    rw [fragments] at h
    rcases List.mem_cons.mp h with rfl | h
    · refine ⟨?_, List.length_take_le _ _⟩
      dsimp only [newSeg]
      split_ifs
      · rw [UInt32.toNat_ofNat']
        omega
      · exact Nat.zero_lt_succ _
    · exact ih (by omega) h

theorem fragments_whole {count : ℕ} (hcount : count < 2 ^ 32) (buffer : List UInt8) :
    Whole ((fragments mss 0 (count + 1) buffer).map (·.content)) := by
  induction count generalizing buffer with
  | zero => exact ⟨rfl, .inl rfl⟩
  | succ count ih =>
    rw [fragments, List.map_cons]
    refine ⟨?_, .inr (ih (by omega) _)⟩
    rw [List.length_map, length_fragments]
    exact Nat.mod_eq_of_lt hcount

theorem message_fragments {stream : ℤ} {count : ℕ} (h : buffer.length ≤ count * mss) :
    message ((fragments mss stream count buffer).map (·.content)) = buffer := by
  induction count generalizing buffer with
  | zero =>
    rw [Nat.zero_mul, Nat.le_zero, List.length_eq_zero_iff] at h
    rw [h]
    rfl
  | succ count ih =>
    have hrest : (buffer.drop mss).length ≤ count * mss := by
      rw [List.length_drop]
      rw [Nat.succ_mul] at h
      omega
    have hih := ih hrest
    rw [message] at hih ⊢
    rw [fragments, List.map_cons, List.flatMap_cons, hih]
    exact List.take_append_drop _ _

theorem fragmentCount_pos (hmss : 0 < mss) (n : ℕ) : 0 < fragmentCount mss n := by
  rw [fragmentCount]
  split_ifs with h
  · exact Nat.one_pos
  · exact Nat.div_pos (by omega) hmss

theorem le_fragmentCount_mul (hmss : 0 < mss) (n : ℕ) : n ≤ fragmentCount mss n * mss := by
  rw [fragmentCount]
  split_ifs with h
  · rwa [Nat.one_mul]
  · have := Nat.lt_div_mul_add hmss (a := n + mss - 1)
    omega

theorem message_cut (hmss : 0 < mss) (buffer : List UInt8) : message (cut mss buffer) = buffer :=
  message_fragments (le_fragmentCount_mul hmss _)

theorem cut_whole (hmss : 0 < mss) (h : fragmentCount mss buffer.length ≤ 255) :
    Whole (cut mss buffer) := by
  obtain ⟨n, hn⟩ := Nat.exists_eq_succ_of_ne_zero (Nat.ne_of_gt (fragmentCount_pos hmss buffer.length))
  rw [cut, hn]
  exact fragments_whole (by omega) _

theorem length_cut (mss : ℕ) (buffer : List UInt8) :
    (cut mss buffer).length = fragmentCount mss buffer.length := by
  rw [cut, List.length_map, length_fragments]

/-! ### The application gives a message -/

theorem sendFragments_result (buffer : List UInt8) : (kcp.sendFragments buffer).2 =
    if fragmentCount kcp.mss.toNat buffer.length > 255 then -2 else 0 := by
  unfold sendFragments
  dsimp only
  split_ifs <;> rfl

/-- A message is accepted unless it takes too many fragments. -/
theorem send_result (hstream : kcp.stream = 0) (buffer : List UInt8) : (kcp.send buffer).2 =
    if fragmentCount kcp.mss.toNat buffer.length > 255 then -2 else 0 := by
  rw [send, if_neg (not_not.mpr hstream), sendFragments_result]

/-! ### The application takes a message -/

theorem mergeFragment_append (l : List IkcpSeg) : (mergeFragment l).1 ++ (mergeFragment l).2 = l := by
  induction l with
  | nil => rfl
  | cons seg l ih =>
    rw [mergeFragment]
    split_ifs
    · rfl
    · rw [List.cons_append, ih]

/-- The first message of a queue that begins with all its fragments. -/
theorem mergeFragment_whole {l : List IkcpSeg} {m rest : List Content} (hm : Whole m)
    (h : l.map (·.content) = m ++ rest) :
    (mergeFragment l).1.map (·.content) = m ∧ (mergeFragment l).2.map (·.content) = rest := by
  induction m generalizing l with
  | nil => exact hm.elim
  | cons c m ih =>
    obtain ⟨hc, hm⟩ := hm
    obtain ⟨seg, l, rfl, hseg, hl⟩ := List.map_eq_cons_iff.mp h
    have hfrg : seg.frg.toNat = m.length := by rw [← hc, ← hseg]; rfl
    rw [mergeFragment]
    split_ifs with hzero
    · rw [hzero] at hfrg
      obtain rfl := List.length_eq_zero_iff.mp hfrg.symm
      exact ⟨by rw [List.map_singleton, hseg], hl⟩
    · rcases hm with rfl | hm
      · exact absurd (UInt32.toNat_inj.mp hfrg) hzero
      · obtain ⟨h1, h2⟩ := ih hm hl
        exact ⟨by rw [List.map_cons, hseg, h1], h2⟩

/-- What a call that succeeds has found, and what it leaves. -/
theorem recv_eq_ok {len : ℤ} {data : List UInt8} (h : (kcp.recv len).2 = .ok data) :
    kcp.rcvQueue ≠ [] ∧ 0 ≤ kcp.peeksize ∧ (mergeFragment kcp.rcvQueue).1.flatMap (·.data) = data ∧
      (kcp.recv len).1 = (if len < 0 then kcp else kcp.removeMessage).moveAvailable.recover
        (kcp.nrcvQue ≥ kcp.rcvWnd) := by
  unfold recv at h ⊢
  by_cases hempty : kcp.rcvQueue = []
  · rw [if_pos hempty] at h
    cases h
  rw [if_neg hempty] at h ⊢
  by_cases hpeek : kcp.peeksize < 0
  · rw [if_pos hpeek] at h
    cases h
  rw [if_neg hpeek] at h ⊢
  by_cases hlong : kcp.peeksize > len.natAbs
  · rw [if_pos hlong] at h
    cases h
  rw [if_neg hlong] at h ⊢
  exact ⟨hempty, Int.not_lt.mp hpeek, Except.ok.inj h, rfl⟩

/-- A message comes out of a queue that begins with messages only when it is there as a whole. -/
theorem recv_message {pending : List (List Content)} (hwhole : ∀ m ∈ pending, Whole m)
    (hshort : ∀ m ∈ pending, m.length ≤ 255)
    (h : kcp.rcvQueue.map (·.content) <+: pending.flatten)
    (hcount : kcp.nrcvQue.toNat ≤ kcp.rcvQueue.length) {len : ℤ} {data : List UInt8}
    (hrecv : (kcp.recv len).2 = .ok data) :
    ∃ m rest, pending = m :: rest ∧ data = message m ∧
      (mergeFragment kcp.rcvQueue).1.map (·.content) = m ∧
      (mergeFragment kcp.rcvQueue).2.map (·.content) <+: rest.flatten := by
  obtain ⟨hempty, hpeek, hdata, -⟩ := recv_eq_ok hrecv
  obtain ⟨seg, queue, hqueue⟩ := List.exists_cons_of_ne_nil hempty
  cases pending with
  | nil =>
    rw [hqueue] at h
    exact absurd (List.prefix_nil.mp h) (List.cons_ne_nil _ _)
  | cons m pending =>
    have hm := hwhole m List.mem_cons_self
    -- the number of the first fragment says how many there are
    have hlen : m.length ≤ kcp.rcvQueue.length := by
      cases m with
      | nil => exact hm.elim
      | cons c m =>
        have hc : seg.content = c := by
          rw [hqueue, List.flatten_cons, List.cons_append, List.map_cons] at h
          exact (List.cons_prefix_cons.mp h).1
        have hfrg : seg.frg.toNat = m.length := by rw [← hm.1, ← hc]; rfl
        rw [List.length_cons]
        by_cases hzero : seg.frg = 0
        · rw [hzero] at hfrg
          rw [hqueue, List.length_cons, ← hfrg]
          exact Nat.succ_le_succ (Nat.zero_le _)
        · rw [peeksize, hqueue] at hpeek
          dsimp only at hpeek
          rw [if_neg hzero] at hpeek
          have hless : ¬kcp.nrcvQue < seg.frg + 1 := fun hless => by
            rw [if_pos hless] at hpeek
            exact absurd hpeek (by decide)
          rw [UInt32.lt_iff_toNat_lt, UInt32.toNat_add, hfrg] at hless
          have hlen : m.length + 1 ≤ 255 := hshort _ List.mem_cons_self
          have h1 : (1 : UInt32).toNat = 1 := rfl
          rw [h1] at hless
          omega
    obtain ⟨rest, hrest⟩ := h
    rw [List.flatten_cons] at hrest
    obtain ⟨rest', hsplit⟩ : m <+: kcp.rcvQueue.map (·.content) :=
      List.prefix_of_prefix_length_le (List.prefix_append _ _) ⟨rest, hrest⟩ (by rwa [List.length_map])
    obtain ⟨h1, h2⟩ := mergeFragment_whole hm hsplit.symm
    refine ⟨m, pending, rfl, ?_, h1, ?_⟩
    · rw [← hdata, message, ← h1, List.flatMap_map]
      rfl
    · rw [h2]
      refine ⟨rest, ?_⟩
      rw [← hsplit, List.append_assoc] at hrest
      exact List.append_cancel_left hrest

end Ikcpcb

end KkLicode.Ikcp
