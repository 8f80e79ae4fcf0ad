import KkLicode.Ikcp.Calls
import KkLicode.Ikcp.Delivery

/-! The ends of a conversation, and one direction of it. A datagram that was sent
stays on the wire of its end, and the other end may be given it once, again or never,
in any order. Messages are those that `ikcp_send` accepted from the application and
those that `ikcp_recv` returned to it. A datagram is delivered in time if neither
end has numbered more than 2^30 segments since it was sent. -/

namespace KkLicode.Ikcp

open Base Serial32 SelectiveRepeat Ikcpcb

/-- A datagram, with the counts of the segments that its end and the other end had numbered. -/
structure Packet where
  data : List UInt8
  mine : ℕ
  peers : ℕ
  deriving DecidableEq

structure End where
  kcp : Ikcpcb
  accepted : List (List UInt8) := []
  returned : List (List UInt8) := []
  numbered : ℕ := 0
  wire : List Packet := []

/-- What happens at an end; a datagram that it is given is one of those that the other end sent. -/
inductive EndEvent where
  | send (buffer : List UInt8)
  | recv (len : ℤ)
  | update (current : UInt32)
  | deliver (i : ℕ)
  deriving DecidableEq, Repr

namespace End

variable (x peer : End)

def send (buffer : List UInt8) : End :=
  { x with
    kcp := (x.kcp.send buffer).1
    accepted := if (x.kcp.send buffer).2 = 0 then x.accepted ++ [buffer] else x.accepted }

/-- A message that is only looked at is not returned. -/
def recv (len : ℤ) : End :=
  { x with
    kcp := (x.kcp.recv len).1
    returned := match (x.kcp.recv len).2 with
      | .ok data => if 0 ≤ len then x.returned ++ [data] else x.returned
      | .error _ => x.returned }

def update (current : UInt32) : End :=
  let numbered := x.numbered + ahead x.kcp.sndNxt (x.kcp.update current).1.sndNxt
  { x with
    kcp := (x.kcp.update current).1
    numbered := numbered
    wire := x.wire ++ (x.kcp.update current).2.map fun d => ⟨d, numbered, peer.numbered⟩ }

def input (data : List UInt8) : End := { x with kcp := (x.kcp.input data).1 }

def event : EndEvent → End
  | .send buffer => x.send buffer
  | .recv len => x.recv len
  | .update current => x.update peer current
  | .deliver i =>
    match peer.wire[i]? with
    | some p => x.input p.data
    | none => x

/-- A message that is there is returned, unless it is only looked at. -/
theorem recv_cases (len : ℤ) :
    (∃ data, (x.kcp.recv len).2 = .ok data ∧ 0 ≤ len ∧ (x.recv len).returned = x.returned ++ [data]) ∨
      ¬((x.kcp.recv len).2.isOk ∧ 0 ≤ len) ∧ (x.recv len).returned = x.returned := by
  rw [recv]
  cases (x.kcp.recv len).2 with
  | error code => exact .inr ⟨fun h => absurd h.1 Bool.false_ne_true, rfl⟩
  | ok data =>
    dsimp only
    split_ifs with hlen
    · exact .inl ⟨data, rfl, hlen, rfl⟩
    · exact .inr ⟨fun h => hlen h.2, rfl⟩

/-- A datagram is delivered in time. -/
def Timely : EndEvent → Prop
  | .deliver i => ∀ p ∈ peer.wire[i]?, peer.numbered ≤ p.mine + 2 ^ 30 ∧ x.numbered ≤ p.peers + 2 ^ 30
  | _ => True

instance : ∀ ev, Decidable (Timely x peer ev)
  | .send _ => isTrue trivial
  | .recv _ => isTrue trivial
  | .update _ => isTrue trivial
  | .deliver i => inferInstanceAs (Decidable (∀ p ∈ peer.wire[i]?, _ ∧ _))

end End

/-- What an event does to the control block is one call, or nothing. -/
theorem End.event_kcp (x peer : End) (ev : EndEvent) :
    (x.event peer ev).kcp = x.kcp ∨ ∃ c, (x.event peer ev).kcp = (x.kcp.call c).1 := by
  cases ev with
  | send buffer => exact .inr ⟨.send buffer, rfl⟩
  | recv len => exact .inr ⟨.recv len, rfl⟩
  | update current => exact .inr ⟨.update current, rfl⟩
  | deliver i =>
    rw [End.event]
    cases peer.wire[i]? with
    | none => exact .inl rfl
    | some p => exact .inr ⟨.input p.data, rfl⟩

/-! ### One direction -/

/-- One direction of the conversation, from `s` to `r`, is the transfer `t`, whose items are the
fragments of the messages; what is on the wires is true. -/
structure Dir (conv : UInt32) (mss wnd : ℕ) (s r : End) (t : Transfer Content) : Prop where
  inv : t.Inv 65535 wnd
  numbered : s.numbered = t.sent.length
  sends : s.kcp.sendSide.Sends t (s.accepted.flatMap (cut mss))
  receives : r.kcp.Receives wnd t (r.returned.flatMap (cut mss))
  brings : ∀ p ∈ s.wire, Carries conv (Brings t p.mine) p.data
  tells : ∀ p ∈ r.wire, Carries conv (Tells wnd t p.peers) p.data
  messages : r.returned <+: s.accepted
  short : ∀ m ∈ s.accepted, fragmentCount mss m.length ≤ 255
  fit : ∀ m ∈ r.returned, fragmentCount mss m.length ≤ wnd

namespace Dir

variable {conv : UInt32} {mss wnd : ℕ} {s r s' r' : End} {t t' : Transfer Content}

/-- What the sender does keeps the direction. -/
theorem sender (h : Dir conv mss wnd s r t) (hby : t.BySender 65535 wnd t')
    (hnumbered : s'.numbered = t'.sent.length)
    (hsends : s'.kcp.sendSide.Sends t' (s'.accepted.flatMap (cut mss)))
    (hwire : ∀ p ∈ s'.wire, p ∈ s.wire ∨ Carries conv (Brings t' p.mine) p.data)
    (hacc : s.accepted <+: s'.accepted) (hshort : ∀ m ∈ s'.accepted, fragmentCount mss m.length ≤ 255) :
    Dir conv mss wnd s' r t' where
  inv := hby.inv
  numbered := hnumbered
  sends := hsends
  receives := by
    have hside := h.receives.side
    refine ⟨⟨hside.wnd, by rw [hby.taken]; exact hside.nxt, ?_, ?_⟩, fun a ha => ?_⟩
    · rw [hby.early, hby.taken]
      exact hside.early
    · rw [hby.take_sent h.inv]
      exact hside.returned
    · obtain ⟨n, hn, hp⟩ := h.receives.acks a ha
      exact ⟨n, hn, hp.mono hby.mono hby.told⟩
  brings p hp := (hwire p hp).elim (fun hp => (h.brings p hp).imp fun _ hq => hq.mono hby.mono) id
  tells p hp := (h.tells p hp).imp fun _ hq => hq.mono hby.mono
  messages := h.messages.trans hacc
  short := hshort
  fit := h.fit

/-- What the receiver does keeps the direction. -/
theorem receiver (h : Dir conv mss wnd s r t) (hby : t.ByReceiver 65535 wnd t')
    (hreceives : r'.kcp.Receives wnd t' (r'.returned.flatMap (cut mss)))
    (hwire : ∀ p ∈ r'.wire, p ∈ r.wire ∨ Carries conv (Tells wnd t' p.peers) p.data)
    (hmessages : r'.returned <+: s.accepted) (hfit : ∀ m ∈ r'.returned, fragmentCount mss m.length ≤ wnd) :
    Dir conv mss wnd s r' t' where
  inv := hby.inv
  numbered := by rw [hby.sent, h.numbered]
  sends := by
    refine ⟨by rw [hby.sent]; exact h.sends.nxt, by rw [hby.sent]; exact h.sends.known, ?_, ?_⟩
    · rw [hby.held, hby.sent]
      exact h.sends.held
    · rw [hby.sent]
      exact h.sends.accepted
  receives := hreceives
  brings p hp := (h.brings p hp).imp fun _ hq => hq.mono hby.mono
  tells p hp := (hwire p hp).elim (fun hp => (h.tells p hp).imp fun _ hq => hq.mono hby.mono) id
  messages := hmessages
  short := h.short
  fit := hfit

/-- The messages that were not returned yet begin with what waits for the application. -/
theorem pending (h : Dir conv mss wnd s r t) : ∃ rest, s.accepted = r.returned ++ rest ∧
    r.kcp.rcvQueue.map (·.content) ++ (t.sent.drop t.taken ++ s.kcp.sndQueue.map (·.content)) =
      rest.flatMap (cut mss) := by
  obtain ⟨rest, hrest⟩ := h.messages
  refine ⟨rest, hrest.symm, ?_⟩
  have hall := h.sends.accepted
  rw [← hrest, List.flatMap_append, ← List.take_append_drop t.taken t.sent, h.receives.side.returned,
    List.append_assoc, List.append_assoc] at hall
  exact (List.append_cancel_left hall).symm

/-- What has a number and was not taken is in `snd_buf` or came ahead of its turn. -/
theorem untaken (h : Dir conv mss wnd s r t) {j : ℕ} {a : Content} (ha : (t.sent.drop t.taken)[j]? = some a) :
    (∃ seg ∈ s.kcp.sndBuf, seg.sn = r.kcp.rcvNxt + .ofNat j ∧ seg.content = a) ∨
      ∃ seg ∈ r.kcp.rcvBuf, seg.sn = r.kcp.rcvNxt + .ofNat j ∧ seg.content = a := by
  have hnxt : r.kcp.rcvNxt = .ofNat t.taken := h.receives.side.nxt
  have hnumber : r.kcp.rcvNxt + .ofNat j = .ofNat (t.taken + j) := by rw [hnxt, UInt32.ofNat_add]
  rw [List.getElem?_drop] at ha
  have hlt := (List.getElem?_eq_some_iff.mp ha).1
  have hsame : ∀ b, t.sent[t.taken + j]? = some b → b = a := fun b hb => Option.some.inj (hb.symm.trans ha)
  by_cases hheld : ∃ b, (t.taken + j, b) ∈ t.held
  · obtain ⟨b, hb⟩ := hheld
    obtain ⟨i, hi, hsn, -, hc⟩ := h.sends.exists_item hb
    obtain ⟨seg, hseg, rfl⟩ := List.mem_map.mp hi
    exact .inl ⟨seg, hseg, hnumber ▸ hsn, hc.trans (hsame b (h.inv.held _ hb).1)⟩
  · rcases (h.inv.kept _ hlt (not_exists.mp hheld)).1 with htaken | ⟨b, hb⟩
    · omega
    · have hb' := hb
      rw [h.receives.side.early] at hb'
      obtain ⟨i, hi, hn, hc⟩ := hb'
      obtain ⟨seg, hseg, rfl⟩ := List.mem_map.mp hi
      refine .inr ⟨seg, hseg, ?_, hc.trans (hsame b (h.inv.early _ hb).1)⟩
      have hn : t.taken + ahead r.kcp.rcvNxt seg.sn = t.taken + j := hn
      have hback := ofNat_add_ahead t.taken seg.sn
      rw [← hnxt, hn] at hback
      rw [hnumber, hback]

/-- A list in the order of its places, with every place taken. -/
theorem map_eq_of_places {α β : Type*} {f : α → ℕ} {g : α → β} {l : List α} {m : List β} {k : ℕ}
    (hl : l.Pairwise fun a b => f a < f b) (hin : ∀ a ∈ l, k ≤ f a ∧ m[f a - k]? = some (g a))
    (hall : ∀ j < m.length, ∃ a ∈ l, f a = k + j) : l.map g = m := by
  induction m generalizing l k with
  | nil =>
    cases l with
    | nil => rfl
    | cons a l => exact absurd (hin a List.mem_cons_self).2 (by simp)
  | cons b m ih =>
    cases l with
    | nil =>
      obtain ⟨a, ha, -⟩ := hall 0 (Nat.succ_pos _)
      cases ha
    | cons a l =>
      obtain ⟨hrest, hl⟩ := List.pairwise_cons.mp hl
      -- the first place is that of the first element
      have hfirst : f a = k := by
        obtain ⟨c, hc, hck⟩ := hall 0 (Nat.succ_pos _)
        have hak := (hin a List.mem_cons_self).1
        rcases List.mem_cons.mp hc with rfl | hc
        · exact hck
        · have := hrest c hc
          omega
      have hval := (hin a List.mem_cons_self).2
      rw [hfirst, Nat.sub_self, List.getElem?_cons_zero] at hval
      rw [List.map_cons, ← Option.some.inj hval]
      congr 1
      refine ih (k := k + 1) hl (fun c hc => ?_) fun j hj => ?_
      · have hlt := hrest c hc
        obtain ⟨-, hget⟩ := hin c (List.mem_cons_of_mem _ hc)
        rw [show f c - k = f c - (k + 1) + 1 by omega, List.getElem?_cons_succ] at hget
        exact ⟨by omega, hget⟩
      · obtain ⟨c, hc, hck⟩ := hall (j + 1) (Nat.succ_lt_succ hj)
        rcases List.mem_cons.mp hc with rfl | hc
        · omega
        · exact ⟨c, hc, by omega⟩

/-- When `snd_buf` is empty, everything that has a number and was not taken is in `rcv_buf`. -/
theorem rcvBuf_eq (hok : r.kcp.view.Ok) (h : Dir conv mss wnd s r t) (hbuf : s.kcp.sndBuf = []) :
    r.kcp.rcvBuf.map (·.content) = t.sent.drop t.taken := by
  have hside := h.receives.side
  have hplaces := map_eq_of_places (f := fun i : Item => ahead r.kcp.rcvNxt i.sn) (g := fun i => i.content)
    (m := t.sent.drop t.taken) (k := 0) hok.receive.early.1 (fun i hi => ?_) fun j hj => ?_
  · rwa [view, receiveSide, List.map_map] at hplaces
  · have hmem : (t.taken + ahead r.kcp.rcvNxt i.sn, i.content) ∈ t.early := hside.early ▸ ⟨i, hi, rfl, rfl⟩
    rw [List.getElem?_drop]
    exact ⟨Nat.zero_le _, (h.inv.early _ hmem).1⟩
  · have hempty : ∀ a, (t.taken + j, a) ∉ t.held := fun a ha => by
      obtain ⟨i, hi, -⟩ := h.sends.exists_item ha
      rw [sendSide, hbuf] at hi
      cases hi
    rw [List.length_drop] at hj
    rcases (h.inv.kept (t.taken + j) (by omega) hempty).1 with htaken | ⟨a, ha⟩
    · omega
    · rw [hside.early] at ha
      obtain ⟨i, hi, hn, -⟩ := ha
      have hn : t.taken + ahead r.kcp.rcvNxt i.sn = t.taken + j := hn
      exact ⟨i, hi, by omega⟩

/-! ### Steps of the sender -/

section Sender

variable (hok : s.kcp.view.Ok) (hconv : s.kcp.conv = conv) (hwnd : wnd ≤ 65535)
  (h : Dir conv mss wnd s r t)

include hok h

theorem send_sender (hstream : s.kcp.stream = 0) (hmss : s.kcp.mss.toNat = mss) (buffer : List UInt8) :
    ∃ t', Dir conv mss wnd (s.send buffer) r t' := by
  obtain ⟨hsends, hshort⟩ := send_sends hok hstream h.sends buffer
  rw [hmss] at hsends hshort
  refine ⟨t, h.sender (.refl h.inv) h.numbered ?_ (fun p hp => .inl hp) ?_ ?_⟩
  · by_cases hret : (s.kcp.send buffer).2 = 0
    · rw [if_pos hret] at hsends
      rw [End.send, if_pos hret, List.flatMap_append, List.flatMap_singleton]
      exact hsends
    · rw [if_neg hret] at hsends
      rw [End.send, if_neg hret]
      exact hsends
  · dsimp only [End.send]
    split_ifs
    · exact List.prefix_append _ _
    · exact List.prefix_refl _
  · intro m hm
    dsimp only [End.send] at hm
    split_ifs at hm with hret
    · rcases List.mem_append.mp hm with hm | hm
      · exact h.short m hm
      · exact List.mem_singleton.mp hm ▸ hshort hret
    · exact h.short m hm

include hconv hwnd in
theorem update_sender (current : UInt32) : ∃ t', Dir conv mss wnd (s.update r current) r t' := by
  subst hconv
  have hflush : ∃ t', t.BySender 65535 wnd t' ∧
      (s.kcp.update current).1.sendSide.Sends t' (s.accepted.flatMap (cut mss)) ∧
      ∀ d ∈ (s.kcp.update current).2, Carries s.kcp.conv (Brings t' t'.sent.length) d := by
    rcases @update_cases s.kcp current with ⟨updated, tsFlush, heq⟩ | ⟨updated, tsFlush, heq⟩
    · have hok' : (s.kcp.setTimes current updated tsFlush).view.Ok := hok
      rw [heq]
      exact flush_sends hok' h.inv h.sends
    · rw [heq]
      exact ⟨t, .refl h.inv, h.sends, by simp⟩
  obtain ⟨t', hby, hsends, hdata⟩ := hflush
  have hnumbered : (s.update r current).numbered = t'.sent.length := by
    obtain ⟨rest, hrest⟩ := hby.mono.sent
    have hle : t.sent.length ≤ t'.sent.length := hby.mono.sent.length_le
    have hfar := hby.inv.length_le
    have hold := h.inv.told
    have hlap := h.inv.taken
    rw [hby.told] at hfar
    show s.numbered + ahead s.kcp.sndNxt (s.kcp.update current).1.sndNxt = _
    rw [show s.kcp.sndNxt = _ from h.sends.nxt, show (s.kcp.update current).1.sndNxt = _ from hsends.nxt,
      h.numbered, ahead_ofNat hle (by omega)]
    omega
  refine ⟨t', h.sender hby hnumbered hsends (fun p hp => ?_) (List.prefix_refl _) h.short⟩
  rcases List.mem_append.mp hp with hp | hp
  · exact .inl hp
  · obtain ⟨d, hd, rfl⟩ := List.mem_map.mp hp
    have hcarries := hdata d hd
    rw [← hnumbered] at hcarries
    exact .inr hcarries

include hconv hwnd in
theorem input_sender {p : Packet} (hp : p ∈ r.wire) (hfresh : s.numbered ≤ p.peers + 2 ^ 30) :
    ∃ t', Dir conv mss wnd (s.input p.data) r t' := by
  obtain ⟨t', hby, hsent, hsends⟩ := input_sends hwnd (hconv ▸ h.tells p hp) h.inv (h.numbered ▸ hfresh)
    hok h.sends
  exact ⟨t', h.sender hby (by rw [hsent]; exact h.numbered) hsends (fun p hp => .inl hp) (List.prefix_refl _)
    h.short⟩

omit hok in
theorem recv_sender (len : ℤ) : ∃ t', Dir conv mss wnd (s.recv len) r t' := by
  have hside : (s.kcp.recv len).1.sendSide = s.kcp.sendSide := congrArg View.send (recv_view len)
  exact ⟨t, h.sender (.refl h.inv) h.numbered (hside.symm ▸ h.sends) (fun p hp => .inl hp)
    (List.prefix_refl _) h.short⟩

end Sender

/-! ### Steps of the receiver -/

section Receiver

variable (hok : r.kcp.view.Ok) (hconv : r.kcp.conv = conv) (hwnd : wnd ≤ 65535)
  (h : Dir conv mss wnd s r t)

include h

theorem send_receiver (buffer : List UInt8) : ∃ t', Dir conv mss wnd s (r.send buffer) t' := by
  have hside : (r.kcp.send buffer).1.receiveSide = r.kcp.receiveSide := congrArg View.receive (send_view buffer)
  have hacks : (r.kcp.send buffer).1.acklist = r.kcp.acklist := congrArg View.acks (send_view buffer)
  exact ⟨t, h.receiver (.refl h.inv) ⟨hside.symm ▸ h.receives.side, hacks.symm ▸ h.receives.acks⟩
    (fun p hp => .inl hp) h.messages h.fit⟩

include hok

include hconv in
theorem update_receiver (current : UInt32) : ∃ t', Dir conv mss wnd s (r.update s current) t' := by
  subst hconv
  have hflush : ∃ t', t.ByReceiver 65535 wnd t' ∧
      (r.kcp.update current).1.Receives wnd t' (r.returned.flatMap (cut mss)) ∧
      ∀ d ∈ (r.kcp.update current).2, Carries r.kcp.conv (Tells wnd t' t.sent.length) d := by
    have hset : ∀ updated tsFlush, (r.kcp.setTimes current updated tsFlush).Receives wnd t
        (r.returned.flatMap (cut mss)) := fun _ _ => ⟨h.receives.side, h.receives.acks⟩
    rcases @update_cases r.kcp current with ⟨updated, tsFlush, heq⟩ | ⟨updated, tsFlush, heq⟩
    · have hok' : (r.kcp.setTimes current updated tsFlush).view.Ok := hok
      rw [heq]
      exact flush_receives hok' h.inv (hset _ _)
    · rw [heq]
      exact ⟨t, .refl h.inv, hset _ _, by simp⟩
  obtain ⟨t', hby, hreceives, htells⟩ := hflush
  refine ⟨t', h.receiver hby hreceives (fun p hp => ?_) h.messages h.fit⟩
  rcases List.mem_append.mp hp with hp | hp
  · exact .inl hp
  · obtain ⟨d, hd, rfl⟩ := List.mem_map.mp hp
    have hcarries := htells d hd
    rw [← h.numbered] at hcarries
    exact .inr hcarries

include hconv hwnd in
theorem input_receiver {p : Packet} (hp : p ∈ s.wire) (hfresh : s.numbered ≤ p.mine + 2 ^ 30) :
    ∃ t', Dir conv mss wnd s (r.input p.data) t' := by
  obtain ⟨t', hby, hreceives⟩ := input_receives hwnd (hconv ▸ h.brings p hp) h.inv (h.numbered ▸ hfresh)
    hok h.receives
  exact ⟨t', h.receiver hby hreceives (fun p hp => .inl hp) h.messages h.fit⟩

/-- A message that is returned is the next one that was accepted. -/
theorem recv_next (hmss : 0 < mss) {len : ℤ} {data : List UInt8} (hret : (r.kcp.recv len).2 = .ok data) :
    (mergeFragment r.kcp.rcvQueue).1.map (·.content) = cut mss data ∧ r.returned ++ [data] <+: s.accepted := by
  obtain ⟨rest, hacc, hqueue⟩ := h.pending
  have hrest : ∀ b ∈ rest, fragmentCount mss b.length ≤ 255 := fun b hb =>
    h.short b (hacc ▸ List.mem_append_right _ hb)
  have hwhole : ∀ m ∈ rest.map (cut mss), Whole m :=
    List.forall_mem_map.mpr fun b hb => cut_whole hmss (hrest b hb)
  obtain ⟨m, others, hm, hdata, hmerge, -⟩ := recv_message hwhole
    (List.forall_mem_map.mpr fun b hb => (length_cut mss b).trans_le (hrest b hb))
    ⟨_, hqueue.trans (List.flatMap_def ..)⟩ (counted_of_ok hok).nrcvQue.le hret
  obtain ⟨b, rest, rfl, rfl, -⟩ := List.map_eq_cons_iff.mp hm
  rw [message_cut hmss] at hdata
  subst hdata
  exact ⟨hmerge, rest, by rw [hacc, List.append_assoc]; rfl⟩

theorem recv_receiver (hmss : 0 < mss) (len : ℤ) : ∃ t', Dir conv mss wnd s (r.recv len) t' := by
  obtain ⟨t', hby, hreceives⟩ := recv_receives hok h.inv h.receives len
  rcases r.recv_cases len with ⟨data, hret, hlen, hreturned⟩ | ⟨hnone, hreturned⟩
  · obtain ⟨hmerge, hnext⟩ := h.recv_next hok hmss hret
    have hfragments : fragmentCount mss data.length ≤ wnd := by
      have hall := congrArg List.length (mergeFragment_append r.kcp.rcvQueue)
      have hcut := congrArg List.length hmerge
      have hwnd : r.kcp.rcvWnd.toNat = wnd := h.receives.side.wnd
      have hqueue := length_rcvQueue hok
      rw [length_cut, List.length_map] at hcut
      rw [List.length_append] at hall
      omega
    rw [hret, hmerge, if_pos ⟨rfl, hlen⟩] at hreceives
    refine ⟨t', h.receiver hby ?_ (fun p hp => .inl hp) (hreturned ▸ hnext) fun m hm => ?_⟩
    · rw [hreturned, List.flatMap_append, List.flatMap_singleton]
      exact hreceives
    · rcases List.mem_append.mp (hreturned ▸ hm) with hm | hm
      · exact h.fit m hm
      · exact List.mem_singleton.mp hm ▸ hfragments
  · rw [if_neg hnone] at hreceives
    exact ⟨t', h.receiver hby (hreturned.symm ▸ hreceives) (fun p hp => .inl hp) (hreturned.symm ▸ h.messages)
      (hreturned.symm ▸ h.fit)⟩

end Receiver

end Dir

end KkLicode.Ikcp
