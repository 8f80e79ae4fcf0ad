import KkLicode.Base.SelectiveRepeat
import KkLicode.Ikcp.Invariant

/-! One direction of a conversation, from the sending side of one control block to
the receiving side of another, as a selective repeat. The segments are numbered by
naturals there; the serial numbers of the two sides are theirs as long as nothing
is older than half a lap. What a head says is true when it is sent, and stays so. -/

namespace KkLicode.Ikcp

open Base Serial32 SelectiveRepeat

/-! ### The sending side -/

namespace SendSide

variable {s : SendSide} {t : Transfer Content} {accepted : List Content} {wnd : ℕ}

/-- The segments of `snd_buf` with their numbers, when so many were given. -/
def held (s : SendSide) (count : ℕ) : Set (ℕ × Content) :=
  {p | ∃ i ∈ s.buf, p.1 + ahead i.sn s.nxt = count ∧ i.content = p.2}

/-- The side is that of the sender of a transfer; all fragments that were accepted are numbered or
wait. -/
structure Sends (s : SendSide) (t : Transfer Content) (accepted : List Content) : Prop where
  nxt : s.nxt = .ofNat t.sent.length
  known : ∀ i ∈ s.buf, ahead i.sn s.nxt ≤ t.sent.length
  held : t.held = s.held t.sent.length
  accepted : accepted = t.sent ++ s.queue

theorem Sends.exists_held (h : s.Sends t accepted) {i : Item} (hi : i ∈ s.buf) :
    ∃ n, i.sn = .ofNat n ∧ (n, i.content) ∈ t.held := by
  have hle := h.known i hi
  refine ⟨t.sent.length - ahead i.sn s.nxt, ?_, ?_⟩
  · rw [h.nxt] at hle ⊢
    exact (ofNat_sub_ahead hle).symm
  · rw [h.held]
    exact ⟨i, hi, Nat.sub_add_cancel hle, rfl⟩

theorem Sends.exists_item (h : s.Sends t accepted) {p : ℕ × Content} (hp : p ∈ t.held) :
    ∃ i ∈ s.buf, i.sn = .ofNat p.1 ∧ p.1 + ahead i.sn s.nxt = t.sent.length ∧ i.content = p.2 := by
  rw [h.held] at hp
  obtain ⟨i, hi, hn, hc⟩ := hp
  refine ⟨i, hi, ?_, hn, hc⟩
  have hle : ahead i.sn (.ofNat t.sent.length) ≤ t.sent.length := h.nxt ▸ h.known i hi
  rw [h.nxt] at hn
  rw [← ofNat_sub_ahead hle]
  congr 1
  omega

theorem Sends.number (hs : s.Ok) (h : s.Sends t accepted) {x : Item} {queue : List Content}
    (hx : x.sn = s.nxt) (hq : s.queue = x.content :: queue) :
    (s.number x queue).Sends (t.number x.content) accepted := by
  have hlen : (t.number x.content).sent.length = t.sent.length + 1 := List.length_append
  have hlast : ahead x.sn (s.nxt + 1) = 1 := by rw [hx, ahead_nxt_succ]
  constructor
  · show s.nxt + 1 = _
    rw [hlen, h.nxt, UInt32.ofNat_add]
    rfl
  · intro i hi
    show ahead i.sn (s.nxt + 1) ≤ _
    rcases List.mem_append.mp hi with hi | hi
    · have := h.known i hi
      rw [hs.ahead_succ hi, hlen]
      omega
    · obtain rfl := List.mem_singleton.mp hi
      omega
  · rw [hlen]
    ext p
    constructor
    · rintro (rfl | hp)
      · exact ⟨x, List.mem_append_right _ (List.mem_singleton_self _), by show _ + ahead x.sn (s.nxt + 1) = _; rw [hlast], rfl⟩
      · rw [h.held] at hp
        obtain ⟨i, hi, hn, hc⟩ := hp
        refine ⟨i, List.mem_append_left _ hi, ?_, hc⟩
        show p.1 + ahead i.sn (s.nxt + 1) = _
        rw [hs.ahead_succ hi]
        omega
    · rintro ⟨i, hi, hn, hc⟩
      have hn : p.1 + ahead i.sn (s.nxt + 1) = t.sent.length + 1 := hn
      rcases List.mem_append.mp hi with hi | hi
      · rw [hs.ahead_succ hi] at hn
        refine .inr ?_
        rw [h.held]
        exact ⟨i, hi, by omega, hc⟩
      · obtain rfl := List.mem_singleton.mp hi
        exact .inl (Prod.ext (by show p.1 = t.sent.length; omega) hc.symm)
  · show accepted = t.sent ++ [x.content] ++ queue
    rw [h.accepted, hq, List.append_assoc]
    rfl

/-- There is room for one more number. -/
theorem Sends.room (hs : s.Ok) (h : s.Sends t accepted) (hroom : ahead s.una s.nxt < 65535) :
    ∀ p ∈ t.held, t.sent.length < p.1 + 65535 := fun p hp => by
  obtain ⟨i, hi, -, hn, -⟩ := h.exists_item hp
  have := hs.ahead_le hi
  omega

theorem held_release {buf : List Item} (hbuf : buf.Sublist s.buf) (n : ℕ) :
    (s.release buf).held n ⊆ s.held n := fun _ ⟨i, hi, hn⟩ => ⟨i, hbuf.subset hi, hn⟩

theorem Sends.release (h : s.Sends t accepted) {buf : List Item} (hbuf : buf.Sublist s.buf) :
    (s.release buf).Sends (t.release ((s.release buf).held t.sent.length)) accepted :=
  ⟨h.nxt, fun i hi => h.known i (hbuf.subset hi), rfl, h.accepted⟩

/-- What is not held any more was in a segment that was released. -/
theorem Sends.released (h : s.Sends t accepted) {buf : List Item} {p : ℕ × Content} (hp : p ∈ t.held)
    (hnot : p ∉ (s.release buf).held t.sent.length) :
    ∃ i ∈ s.buf, i ∉ buf ∧ i.sn = .ofNat p.1 ∧ t.sent.length ≤ p.1 + ahead i.sn s.nxt := by
  obtain ⟨i, hi, hsn, hn, hc⟩ := h.exists_item hp
  exact ⟨i, hi, fun hbuf => hnot ⟨i, hbuf, hn, hc⟩, hsn, hn.ge⟩

end SendSide

/-! ### The receiving side -/

namespace ReceiveSide

variable {r : ReceiveSide} {t : Transfer Content} {returned : List Content} {wnd : ℕ}

/-- The segments of `rcv_buf` with their numbers, when so many were taken. -/
def early (r : ReceiveSide) (count : ℕ) : Set (ℕ × Content) :=
  {p | ∃ i ∈ r.buf, count + ahead r.nxt i.sn = p.1 ∧ i.content = p.2}

/-- The side is that of the receiver of a transfer; what was taken was returned or waits. -/
structure Receives (wnd : ℕ) (r : ReceiveSide) (t : Transfer Content) (returned : List Content) : Prop where
  wnd : r.wnd.toNat = wnd
  nxt : r.nxt = .ofNat t.taken
  early : t.early = r.early t.taken
  returned : t.sent.take t.taken = returned ++ r.queue

theorem Receives.put (h : r.Receives wnd t returned) {x : Item} {older newer : List Item} {n : ℕ}
    (hbuf : r.buf = older ++ newer) (hx : t.taken + ahead r.nxt x.sn = n) :
    (r.put (older ++ x :: newer)).Receives wnd (t.put n x.content) returned := by
  refine ⟨h.wnd, h.nxt, ?_, h.returned⟩
  ext p
  constructor
  · rintro (rfl | hp)
    · exact ⟨x, List.mem_append_right _ List.mem_cons_self, hx, rfl⟩
    · rw [h.early] at hp
      obtain ⟨i, hi, hn⟩ := hp
      rcases List.mem_append.mp (hbuf ▸ hi) with hi | hi
      · exact ⟨i, List.mem_append_left _ hi, hn⟩
      · exact ⟨i, List.mem_append_right _ (List.mem_cons_of_mem _ hi), hn⟩
  · rintro ⟨i, hi, hn, hc⟩
    have hn : t.taken + ahead r.nxt i.sn = p.1 := hn
    rcases List.mem_append.mp hi with hi | hi
    · exact .inr (h.early ▸ ⟨i, hbuf ▸ List.mem_append_left _ hi, hn, hc⟩)
    · rcases List.mem_cons.mp hi with rfl | hi
      · exact .inl (Prod.ext (hn.symm.trans hx) hc.symm)
      · exact .inr (h.early ▸ ⟨i, hbuf ▸ List.mem_append_right _ hi, hn, hc⟩)

/-- The next segment is one of the early ones. -/
theorem Receives.next_mem (h : r.Receives wnd t returned) {i : Item} (hi : i ∈ r.buf) (hsn : i.sn = r.nxt) :
    (t.taken, i.content) ∈ t.early := by
  rw [h.early]
  exact ⟨i, hi, by rw [hsn, ahead_self]; rfl, rfl⟩

theorem Receives.move (ht : t.Inv 65535 wnd) (hr : r.Fits) (h : r.Receives wnd t returned) {i : Item}
    {buf : List Item} (hbuf : r.buf = i :: buf) (hsn : i.sn = r.nxt) :
    (r.move i buf).Receives wnd (t.take i.content) returned := by
  have hmem : i ∈ r.buf := hbuf ▸ List.mem_cons_self
  have hfirst : ahead r.nxt i.sn = 0 := by rw [hsn, ahead_self]
  have hnext : ∀ j ∈ buf, ahead (r.nxt + 1) j.sn + 1 = ahead r.nxt j.sn := fun j hj => by
    have hsorted : (i :: buf).Pairwise fun i j => ahead r.nxt i.sn < ahead r.nxt j.sn := hbuf ▸ hr.early.1
    have hlt := List.rel_of_pairwise_cons hsorted hj
    exact add_one_ahead (by omega)
  constructor
  · exact h.wnd
  · show r.nxt + 1 = .ofNat (t.taken + 1)
    rw [h.nxt, UInt32.ofNat_add]
    rfl
  · ext p
    constructor
    · rintro ⟨hp, hne⟩
      rw [h.early] at hp
      obtain ⟨j, hj, hn, hc⟩ := hp
      rcases List.mem_cons.mp (hbuf ▸ hj) with rfl | hj
      · exact absurd (Prod.ext (by show p.1 = t.taken; omega) hc.symm) hne
      · refine ⟨j, hj, ?_, hc⟩
        have := hnext j hj
        show t.taken + 1 + ahead (r.nxt + 1) j.sn = p.1
        omega
    · rintro ⟨j, hj, hn, hc⟩
      have hj : j ∈ buf := hj
      have hn : t.taken + 1 + ahead (r.nxt + 1) j.sn = p.1 := hn
      have := hnext j hj
      refine ⟨?_, fun heq => ?_⟩
      · rw [h.early]
        exact ⟨j, hbuf ▸ List.mem_cons_of_mem _ hj, by omega, hc⟩
      · have hp : p.1 = t.taken := congrArg Prod.fst heq
        omega
  · show t.sent.take (t.taken + 1) = returned ++ (r.queue ++ [i.content])
    rw [ht.take_sent (h.next_mem hmem hsn), h.returned, List.append_assoc]

end ReceiveSide

end KkLicode.Ikcp
