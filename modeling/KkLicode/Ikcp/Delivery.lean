import Mathlib.Data.List.TakeWhile
import KkLicode.Ikcp.Link

/-! What the calls of a control block do to the transfers that it takes part in: as
the sender it gives numbers and releases segments, as the receiver it takes segments,
acknowledges them and hands messages to the application. -/

namespace KkLicode.Ikcp

open Base Serial32 SelectiveRepeat

namespace Ikcpcb

variable {kcp : Ikcpcb} {seg : IkcpSeg} {t : Transfer Content} {accepted returned : List Content}
  {wnd stamp n u : ℕ}

/-! ### The sender hears from the receiver -/

section Sender

variable (hwnd : wnd ≤ 65535) (ht : t.Inv 65535 wnd) (hfresh : t.sent.length ≤ stamp + 2 ^ 30)

include hwnd ht hfresh

theorem parseUna_sends (hok : kcp.sendSide.Ok) (h : kcp.sendSide.Sends t accepted)
    (hu : t.Una 65535 wnd stamp u) :
    ∃ t', t.BySender 65535 wnd t' ∧ t'.sent = t.sent ∧
      (kcp.parseUna (.ofNat u)).shrinkBuf.sendSide.Sends t' accepted := by
  have hnear := ht.una_near hu hfresh
  have hsub : ((kcp.sndBuf.dropWhile fun seg => itimediff (.ofNat u) seg.sn > 0).map (·.item)).Sublist
      kcp.sendSide.buf := (List.dropWhile_sublist _).map _
  rw [parseUna_shrinkBuf hok]
  refine ⟨t.release ((kcp.sendSide.release _).held t.sent.length),
    .release (ht.release_una hu ?_ fun p hp hnot => ?_), rfl, h.release hsub⟩
  · rw [h.held]
    exact SendSide.held_release hsub _
  · obtain ⟨i, hi, hgone, hsn, hn⟩ := h.released hp hnot
    have hwindow := (hok.window i hi).2
    have hlt := (List.getElem?_eq_some_iff.mp (ht.held p hp).1).1
    obtain ⟨seg, hseg, rfl⟩ := List.mem_map.mp hi
    -- the loop went over the segment
    have hover : 0 < itimediff (.ofNat u) seg.sn := by
      rw [← List.takeWhile_append_dropWhile (p := fun seg => itimediff (.ofNat u) seg.sn > 0)
        (l := kcp.sndBuf)] at hseg
      rcases List.mem_append.mp hseg with hseg | hseg
      · have hover := List.mem_takeWhile_imp hseg
        exact of_decide_eq_true hover
      · exact absurd (List.mem_map_of_mem hseg) hgone
    rw [show seg.sn = .ofNat p.1 from hsn, itimediff, diff_ofNat (by omega) (by omega)] at hover
    omega

theorem parseAck_sends (hok : kcp.sendSide.Ok) (h : kcp.sendSide.Sends t accepted)
    (ha : t.Ack 65535 wnd (2 ^ 30) stamp n) :
    ∃ t', t.BySender 65535 wnd t' ∧ t'.sent = t.sent ∧
      (kcp.parseAck (.ofNat n)).shrinkBuf.sendSide.Sends t' accepted := by
  have hnear := ht.ack_near ha hfresh
  have hrest : (if kcp.InFlight (.ofNat n) then removeAcked (.ofNat n) kcp.sndBuf else kcp.sndBuf).Sublist
      kcp.sndBuf := by
    split_ifs
    · exact removeAcked_sublist _
    · exact List.Sublist.refl _
  have hsub := hrest.map (·.item)
  rw [parseAck_shrinkBuf hok]
  refine ⟨t.release ((kcp.sendSide.release _).held t.sent.length),
    .release (ht.release_ack ha ?_ fun p hp hnot => ?_), rfl, h.release hsub⟩
  · rw [h.held]
    exact SendSide.held_release hsub _
  · obtain ⟨i, hi, hgone, hsn, hn⟩ := h.released hp hnot
    have hwindow := (hok.window i hi).2
    have hlt := (List.getElem?_eq_some_iff.mp (ht.held p hp).1).1
    obtain ⟨seg, hseg, rfl⟩ := List.mem_map.mp hi
    -- only a segment with the number is taken out
    have heq : seg.sn = .ofNat n := by
      by_contra hne
      refine hgone (List.mem_map_of_mem ?_)
      split_ifs
      · exact mem_removeAcked hseg hne
      · exact hseg
    exact ofNat_inj_of_lt (hsn.symm.trans heq) (by omega) (by omega)

theorem inputAck_sends (hok : kcp.sendSide.Ok) (h : kcp.sendSide.Sends t accepted)
    (ha : t.Ack 65535 wnd (2 ^ 30) stamp n) (ts : UInt32) :
    ∃ t', t.BySender 65535 wnd t' ∧ t'.sent = t.sent ∧
      (kcp.inputAck ts (.ofNat n)).sendSide.Sends t' accepted := by
  have hside : ∀ rtt, (kcp.updateAck rtt).sendSide = kcp.sendSide := fun rtt =>
    congrArg View.send (updateAck_view rtt)
  unfold inputAck
  dsimp only
  split_ifs
  · refine parseAck_sends hwnd ht hfresh ?_ ?_ ha
    · rwa [hside]
    · rwa [hside]
  · exact parseAck_sends hwnd ht hfresh hok h ha

end Sender

/-- What a segment says to the sender of a transfer is true. -/
structure Tells (wnd : ℕ) (t : Transfer Content) (stamp : ℕ) (seg : IkcpSeg) : Prop where
  una : ∃ u, seg.una = .ofNat u ∧ t.Una 65535 wnd stamp u
  ack : seg.cmd = IKCP_CMD_ACK → ∃ n, seg.sn = .ofNat n ∧ t.Ack 65535 wnd (2 ^ 30) stamp n

theorem Tells.mono {t' : Transfer Content} (h : Tells wnd t stamp seg) (hext : t.Extends t') :
    Tells wnd t' stamp seg where
  una := by
    obtain ⟨u, hu, h⟩ := h.una
    exact ⟨u, hu, h.mono hext⟩
  ack hcmd := by
    obtain ⟨n, hn, h⟩ := h.ack hcmd
    exact ⟨n, hn, h.mono hext⟩

theorem inputSeg_sends (hwnd : wnd ≤ 65535) (ht : t.Inv 65535 wnd) (hfresh : t.sent.length ≤ stamp + 2 ^ 30)
    (hok : kcp.sendSide.Ok) (h : kcp.sendSide.Sends t accepted) (htells : Tells wnd t stamp seg) :
    ∃ t', t.BySender 65535 wnd t' ∧ t'.sent = t.sent ∧ (kcp.inputSeg seg).sendSide.Sends t' accepted := by
  obtain ⟨u, huna, hu⟩ := htells.una
  have hok0 : { kcp with rmtWnd := seg.wnd }.sendSide.Ok := hok
  have h0 : { kcp with rmtWnd := seg.wnd }.sendSide.Sends t accepted := h
  obtain ⟨t1, hby, hsent, h1⟩ := parseUna_sends hwnd ht hfresh hok0 h0 hu
  have hok1 : ({ kcp with rmtWnd := seg.wnd }.parseUna (.ofNat u)).shrinkBuf.sendSide.Ok := by
    rw [parseUna_shrinkBuf hok0]
    exact hok0.release ((List.dropWhile_sublist _).map _)
  unfold inputSeg
  dsimp only
  rw [huna]
  split_ifs with hack hpush
  · obtain ⟨n, hn, ha⟩ := htells.ack hack
    rw [hn]
    obtain ⟨t2, hby2, hsent2, h2⟩ := inputAck_sends hwnd hby.inv (hsent ▸ hfresh) hok1 h1 (ha.mono hby.mono) seg.ts
    exact ⟨t2, hby.trans hby2, hsent2.trans hsent, h2⟩
  · refine ⟨t1, hby, hsent, ?_⟩
    rw [show (Ikcpcb.inputPush _ seg).sendSide = _ from congrArg View.send inputPush_view]
    exact h1
  · exact ⟨t1, hby, hsent, h1⟩
  · exact ⟨t1, hby, hsent, h1⟩

/-! ### The receiver hears from the sender -/

/-- The control block is the receiver of a transfer, and acknowledges what has arrived. -/
structure Receives (wnd : ℕ) (kcp : Ikcpcb) (t : Transfer Content) (returned : List Content) : Prop where
  side : kcp.receiveSide.Receives wnd t returned
  acks : ∀ a ∈ kcp.acklist, ∃ n, a.1 = .ofNat n ∧ t.Pending 65535 (2 ^ 30) n

theorem moveAvailable_receives (ht : t.Inv 65535 wnd) (hfits : kcp.receiveSide.Fits)
    (h : kcp.receiveSide.Receives wnd t returned) :
    ∃ t', t.ByReceiver 65535 wnd t' ∧ t'.told = t.told ∧
      kcp.moveAvailable.receiveSide.Receives wnd t' returned := by
  refine (moveAvailable_rule (P := fun r => r.Fits ∧ ∃ t', t.ByReceiver 65535 wnd t' ∧ t'.told = t.told ∧
    r.Receives wnd t' returned) ?_ ⟨hfits, t, .refl ht, rfl, h⟩).2
  rintro r i buf ⟨hr, t', hby, htold, h⟩ hbuf hsn hroom
  have hnext := h.next_mem (hbuf ▸ List.mem_cons_self) hsn
  exact ⟨hr.move hbuf hroom, t'.take i.content, hby.trans (.take (hby.inv.take hnext)), htold,
    h.move hby.inv hr hbuf hsn⟩

/-- A segment of the window is there afterwards. -/
theorem insertSeg_receives (ht : t.Inv 65535 wnd) (hfits : kcp.receiveSide.Fits)
    (h : kcp.receiveSide.Receives wnd t returned) (hitem : t.sent[n]? = some seg.content)
    (hsn : seg.sn = .ofNat n) (hle : t.taken ≤ n) (hlt : n < t.taken + wnd) :
    ∃ t', t.ByReceiver 65535 wnd t' ∧ t'.told = t.told ∧
      (kcp.insertSeg seg).receiveSide.Receives wnd t' returned ∧ t'.Arrived n := by
  have hwnd : kcp.rcvWnd.toNat = wnd := h.wnd
  have hnxt : kcp.rcvNxt = .ofNat t.taken := h.nxt
  have hlap : wnd < 2 ^ 32 := hwnd ▸ kcp.rcvWnd.toNat_lt
  have hahead : ahead kcp.rcvNxt seg.sn = n - t.taken := by
    rw [hnxt, hsn]
    exact ahead_ofNat hle (by omega)
  have hroom : ahead kcp.rcvNxt seg.sn < kcp.rcvWnd.toNat := by omega
  rcases insertSeg_receiveSide hfits hroom with
    ⟨⟨i, hi, hin⟩, hside⟩ | ⟨older, newer, hbuf, hside, -, -⟩
  · refine ⟨t, .refl ht, rfl, hside ▸ h, .inr ⟨i.content, ?_⟩⟩
    rw [h.early]
    refine ⟨i, hi, ?_, rfl⟩
    show t.taken + ahead kcp.rcvNxt i.sn = n
    rw [hin]
    omega
  · refine ⟨t.put n seg.content, .put (ht.put hitem hle hlt), rfl, ?_, .inr ⟨seg.content, .inl rfl⟩⟩
    rw [hside]
    refine h.put hbuf ?_
    show t.taken + ahead kcp.rcvNxt seg.sn = n
    omega

theorem parseData_receives (ht : t.Inv 65535 wnd) (hok : kcp.receiveSide.Ok)
    (h : kcp.receiveSide.Receives wnd t returned) (hitem : t.sent[n]? = some seg.content)
    (hsn : seg.sn = .ofNat n) (hle : t.taken ≤ n) (hlt : n < t.taken + wnd) :
    ∃ t', t.ByReceiver 65535 wnd t' ∧ t'.told = t.told ∧
      (kcp.parseData seg).receiveSide.Receives wnd t' returned ∧ t'.Arrived n := by
  have hwnd : kcp.rcvWnd.toNat = wnd := h.wnd
  have hnxt : kcp.rcvNxt = .ofNat t.taken := h.nxt
  have hlap : kcp.rcvWnd.toNat < 2 ^ 31 := hok.wnd
  have hahead : ahead kcp.rcvNxt seg.sn < kcp.rcvWnd.toNat := by
    rw [hnxt, hsn, ahead_ofNat hle (by omega)]
    omega
  obtain ⟨t1, hby, htold, h1, harr⟩ := insertSeg_receives ht hok.toFits h hitem hsn hle hlt
  obtain ⟨t2, hby2, htold2, h2⟩ := moveAvailable_receives hby.inv (insertSeg_fits hok.toFits hahead) h1
  rw [parseData, if_neg ((ReceiveSide.accepts_iff hlap).mpr hahead)]
  exact ⟨t2, hby.trans hby2, htold2.trans htold, h2, hby2.mono.arrived n harr⟩

theorem inputPush_receives (hwnd : wnd ≤ 65535) (ht : t.Inv 65535 wnd) (hok : kcp.receiveSide.Ok)
    (h : kcp.Receives wnd t returned) (hd : t.Data 65535 stamp n seg.content) (hsn : seg.sn = .ofNat n)
    (hfresh : t.sent.length ≤ stamp + 2 ^ 30) :
    ∃ t', t.ByReceiver 65535 wnd t' ∧ t'.told = t.told ∧ (kcp.inputPush seg).Receives wnd t' returned := by
  have hnear := ht.data_near hd hfresh
  have hw : kcp.rcvWnd.toNat = wnd := h.side.wnd
  have hnxt : kcp.rcvNxt = .ofNat t.taken := h.side.nxt
  have hend : kcp.rcvNxt + kcp.rcvWnd = .ofNat (t.taken + wnd) := by
    rw [UInt32.ofNat_add, ← hnxt, ← hw, UInt32.ofNat_toNat]
  have hacks : ∀ {t' : Transfer Content} {k : Ikcpcb}, t.ByReceiver 65535 wnd t' → t'.told = t.told →
      t'.Arrived n → k.acklist = kcp.acklist ++ [(seg.sn, seg.ts)] →
      ∀ a ∈ k.acklist, ∃ n, a.1 = .ofNat n ∧ t'.Pending 65535 (2 ^ 30) n := by
    intro t' k hby htold harr hk a ha
    rcases List.mem_append.mp (hk ▸ ha) with ha | ha
    · obtain ⟨m, hm, hp⟩ := h.acks a ha
      exact ⟨m, hm, hp.mono hby.mono htold⟩
    · obtain rfl := List.mem_singleton.mp ha
      exact ⟨n, hsn, hby.inv.pending (hd.mono hby.mono) (hby.sent ▸ hfresh) harr⟩
  have hbelow : itimediff seg.sn (kcp.rcvNxt + kcp.rcvWnd) = n - (t.taken + wnd : ℕ) := by
    rw [hend, hsn, itimediff, diff_ofNat (by omega) (by omega)]
  have hnew : itimediff seg.sn kcp.rcvNxt = n - t.taken := by
    rw [hnxt, hsn, itimediff, diff_ofNat (by omega) (by omega)]
  unfold inputPush
  rw [hbelow]
  dsimp only
  rw [show itimediff seg.sn (kcp.ackPush seg.sn seg.ts).rcvNxt = n - t.taken from hnew]
  split_ifs with hin hge
  · have hok1 : (kcp.ackPush seg.sn seg.ts).receiveSide.Ok := hok
    obtain ⟨t', hby, htold, h', harr⟩ := parseData_receives ht hok1 h.side hd.item hsn (by omega) (by omega)
    refine ⟨t', hby, htold, h', hacks hby htold harr ?_⟩
    exact (congrArg View.acks parseData_view : (Ikcpcb.parseData _ seg).acklist = _)
  · exact ⟨t, .refl ht, rfl, h.side, hacks (.refl ht) rfl (.inl (by omega)) rfl⟩
  · exact ⟨t, .refl ht, rfl, h⟩

/-- What a segment brings to the receiver of a transfer is one of its items. -/
def Brings (t : Transfer Content) (stamp : ℕ) (seg : IkcpSeg) : Prop :=
  seg.cmd = IKCP_CMD_PUSH → ∃ n, seg.sn = .ofNat n ∧ t.Data 65535 stamp n seg.content

theorem Brings.mono {t' : Transfer Content} (h : Brings t stamp seg) (hext : t.Extends t') :
    Brings t' stamp seg := fun hcmd => by
  obtain ⟨n, hn, hd⟩ := h hcmd
  exact ⟨n, hn, hd.mono hext⟩

theorem inputSeg_receives (hwnd : wnd ≤ 65535) (ht : t.Inv 65535 wnd) (hok : kcp.receiveSide.Ok)
    (h : kcp.Receives wnd t returned) (hbrings : Brings t stamp seg)
    (hfresh : t.sent.length ≤ stamp + 2 ^ 30) :
    ∃ t', t.ByReceiver 65535 wnd t' ∧ t'.told = t.told ∧ (kcp.inputSeg seg).Receives wnd t' returned := by
  unfold inputSeg
  dsimp only
  split_ifs with hack hpush
  · have hview := @inputAck_view ({ kcp with rmtWnd := seg.wnd }.parseUna seg.una).shrinkBuf seg.ts seg.sn
    refine ⟨t, .refl ht, rfl, ?_, ?_⟩
    · rw [show (Ikcpcb.inputAck _ seg.ts seg.sn).receiveSide = _ from congrArg View.receive hview]
      exact h.side
    · rw [show (Ikcpcb.inputAck _ seg.ts seg.sn).acklist = _ from congrArg View.acks hview]
      exact h.acks
  · obtain ⟨n, hn, hd⟩ := hbrings hpush
    exact inputPush_receives hwnd ht hok ⟨h.side, h.acks⟩ hd hn hfresh
  · exact ⟨t, .refl ht, rfl, h.side, h.acks⟩
  · exact ⟨t, .refl ht, rfl, h.side, h.acks⟩

/-! ### A datagram arrives -/

theorem foldl_inputSeg_sends (hwnd : wnd ≤ 65535) {conv : UInt32} {segs : List IkcpSeg}
    (hsegs : ∀ seg ∈ segs, Sendable conv seg ∧ Tells wnd t stamp seg) (ht : t.Inv 65535 wnd)
    (hfresh : t.sent.length ≤ stamp + 2 ^ 30) (hok : kcp.view.Ok) (h : kcp.sendSide.Sends t accepted) :
    ∃ t', t.BySender 65535 wnd t' ∧ t'.sent = t.sent ∧
      (segs.foldl (fun k seg => k.inputSeg seg.wire) kcp).sendSide.Sends t' accepted := by
  induction segs generalizing kcp t with
  | nil => exact ⟨t, .refl ht, rfl, h⟩
  | cons seg segs ih =>
    obtain ⟨hsend, htells⟩ := hsegs seg List.mem_cons_self
    have hwire : Tells wnd t stamp seg.wire := ⟨htells.una, htells.ack⟩
    have hle : seg.wire.wnd.toNat ≤ 65535 := Nat.le_of_lt_succ hsend.wnd
    have hok1 := inputSeg_ok hok hle
    obtain ⟨t1, hby, hsent, h1⟩ := inputSeg_sends hwnd ht hfresh hok.send h hwire
    obtain ⟨t2, hby2, hsent2, h2⟩ := ih
      (fun s hs => ⟨(hsegs s (List.mem_cons_of_mem _ hs)).1, (hsegs s (List.mem_cons_of_mem _ hs)).2.mono hby.mono⟩)
      hby.inv (hsent ▸ hfresh) hok1 h1
    exact ⟨t2, hby.trans hby2, hsent2.trans hsent, h2⟩

theorem foldl_inputSeg_receives (hwnd : wnd ≤ 65535) {conv : UInt32} {segs : List IkcpSeg}
    (hsegs : ∀ seg ∈ segs, Sendable conv seg ∧ Brings t stamp seg) (ht : t.Inv 65535 wnd)
    (hfresh : t.sent.length ≤ stamp + 2 ^ 30) (hok : kcp.view.Ok) (h : kcp.Receives wnd t returned) :
    ∃ t', t.ByReceiver 65535 wnd t' ∧
      (segs.foldl (fun k seg => k.inputSeg seg.wire) kcp).Receives wnd t' returned := by
  induction segs generalizing kcp t with
  | nil => exact ⟨t, .refl ht, h⟩
  | cons seg segs ih =>
    obtain ⟨hsend, hbrings⟩ := hsegs seg List.mem_cons_self
    have hwire : Brings t stamp seg.wire := hbrings
    have hle : seg.wire.wnd.toNat ≤ 65535 := Nat.le_of_lt_succ hsend.wnd
    have hok1 := inputSeg_ok hok hle
    obtain ⟨t1, hby, -, h1⟩ := inputSeg_receives hwnd ht hok.receive h hwire hfresh
    obtain ⟨t2, hby2, h2⟩ := ih
      (fun s hs => ⟨(hsegs s (List.mem_cons_of_mem _ hs)).1, (hsegs s (List.mem_cons_of_mem _ hs)).2.mono hby.mono⟩)
      hby.inv (hby.sent ▸ hfresh) hok1 h1
    exact ⟨t2, hby.trans hby2, h2⟩

/-- What the receiver sent in time releases only what has arrived. -/
theorem input_sends (hwnd : wnd ≤ 65535) {d : List UInt8} (hd : Carries kcp.conv (Tells wnd t stamp) d)
    (ht : t.Inv 65535 wnd) (hfresh : t.sent.length ≤ stamp + 2 ^ 30) (hok : kcp.view.Ok)
    (h : kcp.sendSide.Sends t accepted) :
    ∃ t', t.BySender 65535 wnd t' ∧ t'.sent = t.sent ∧ (kcp.input d).1.sendSide.Sends t' accepted := by
  obtain ⟨segs, hne, rfl, hsegs⟩ := hd
  obtain ⟨t', hby, hsent, h'⟩ := foldl_inputSeg_sends hwnd hsegs ht hfresh hok h
  have hside : (kcp.input (row segs)).1.sendSide = _ :=
    congrArg View.send (input_row hne fun seg hseg => (hsegs seg hseg).1).1
  exact ⟨t', hby, hsent, hside ▸ h'⟩

/-- What the sender sent in time goes to its place. -/
theorem input_receives (hwnd : wnd ≤ 65535) {d : List UInt8} (hd : Carries kcp.conv (Brings t stamp) d)
    (ht : t.Inv 65535 wnd) (hfresh : t.sent.length ≤ stamp + 2 ^ 30) (hok : kcp.view.Ok)
    (h : kcp.Receives wnd t returned) :
    ∃ t', t.ByReceiver 65535 wnd t' ∧ (kcp.input d).1.Receives wnd t' returned := by
  obtain ⟨segs, hne, rfl, hsegs⟩ := hd
  obtain ⟨t', hby, h'⟩ := foldl_inputSeg_receives hwnd hsegs ht hfresh hok h
  have hview := (input_row hne fun seg hseg => (hsegs seg hseg).1).1
  have hside : (kcp.input (row segs)).1.receiveSide = _ := congrArg View.receive hview
  have hacks : (kcp.input (row segs)).1.acklist = _ := congrArg View.acks hview
  exact ⟨t', hby, hside ▸ h'.side, hacks ▸ h'.acks⟩

/-! ### A flush -/

theorem numberAll_sends (hok : kcp.view.Ok) (ht : t.Inv 65535 wnd) (h : kcp.sendSide.Sends t accepted) :
    ∃ t', t.BySender 65535 wnd t' ∧ kcp.numberAll.sendSide.Sends t' accepted := by
  refine (numberAll_rule (P := fun s => s.Ok ∧ ∃ t', t.BySender 65535 wnd t' ∧ s.Sends t' accepted) ?_
    ⟨hok.send, t, .refl ht, h⟩).2
  rintro s x queue cwnd ⟨hs, t', hby, h⟩ hnext hcwnd hroom
  have hrmt : kcp.rmtWnd.toNat ≤ 65535 := hok.rmtWnd
  have hlt := View.room hs (by omega) hroom
  have hlt : ahead s.una s.nxt < 65535 := by omega
  exact ⟨hs.number hnext.sn hnext.queue hlt, t'.number x.content,
    hby.trans (.number (hby.inv.number (by decide) (h.room hs hlt) _)), h.number hs hnext.sn hnext.queue⟩

/-- What the sender flushes are its items. -/
theorem flush_sends (hok : kcp.view.Ok) (ht : t.Inv 65535 wnd) (h : kcp.sendSide.Sends t accepted) :
    ∃ t', t.BySender 65535 wnd t' ∧ kcp.flush.1.sendSide.Sends t' accepted ∧
      ∀ d ∈ kcp.flush.2, Carries kcp.conv (Brings t' t'.sent.length) d := by
  by_cases hup : kcp.updated = 0
  · rw [flush, if_pos hup]
    exact ⟨t, .refl ht, h, by simp⟩
  · obtain ⟨t', hby, h'⟩ := numberAll_sends hok ht h
    have hside : kcp.flush.1.sendSide = kcp.numberAll.sendSide := congrArg View.send (flush_view hup)
    refine ⟨t', hby, hside ▸ h', fun d hd => (flush_carries hok hd).imp fun seg hseg hcmd => ?_⟩
    obtain ⟨n, hn, hheld⟩ := h'.exists_held (hseg.push hcmd)
    exact ⟨n, hn, hby.inv.data hheld⟩

/-- What the receiver flushes says what it has taken, and acknowledges what has arrived. -/
theorem flush_receives (hok : kcp.view.Ok) (ht : t.Inv 65535 wnd) (h : kcp.Receives wnd t returned) :
    ∃ t', t.ByReceiver 65535 wnd t' ∧ kcp.flush.1.Receives wnd t' returned ∧
      ∀ d ∈ kcp.flush.2, Carries kcp.conv (Tells wnd t' t.sent.length) d := by
  by_cases hup : kcp.updated = 0
  · rw [flush, if_pos hup]
    exact ⟨t, .refl ht, h, by simp⟩
  · have hside : kcp.flush.1.receiveSide = kcp.receiveSide := congrArg View.receive (flush_view hup)
    have hacks : kcp.flush.1.acklist = [] := congrArg View.acks (flush_view hup)
    have hnxt : kcp.rcvNxt = .ofNat t.taken := h.side.nxt
    refine ⟨t.tell, .tell ht, ⟨?_, by rw [hacks]; simp⟩, fun d hd => (flush_carries hok hd).imp fun seg hseg => ?_⟩
    · rw [hside]
      exact ⟨h.side.wnd, h.side.nxt, h.side.early, h.side.returned⟩
    · refine ⟨⟨t.taken, hseg.una.trans hnxt, ht.una⟩, fun hcmd => ?_⟩
      obtain ⟨ts, hts⟩ := hseg.ack hcmd
      obtain ⟨n, hn, hp⟩ := h.acks _ hts
      exact ⟨n, hn, ht.ack hp⟩

/-! ### The application -/

/-- The fragments of an accepted message wait behind the others. -/
theorem send_sends (hok : kcp.view.Ok) (hstream : kcp.stream = 0) (h : kcp.sendSide.Sends t accepted)
    (buffer : List UInt8) :
    (kcp.send buffer).1.sendSide.Sends t
        (if (kcp.send buffer).2 = 0 then accepted ++ cut kcp.mss.toNat buffer else accepted) ∧
      ((kcp.send buffer).2 = 0 → fragmentCount kcp.mss.toNat buffer.length ≤ 255) := by
  have hret := send_result hstream buffer
  rw [hret]
  by_cases hcount : fragmentCount kcp.mss.toNat buffer.length > 255
  · have hsame : (kcp.send buffer).1 = kcp := by
      rw [send, if_neg (not_not.mpr hstream), sendFragments, if_pos hcount]
    have hfails : ¬(-2 : ℤ) = 0 := by decide
    rw [hsame, if_pos hcount, if_neg hfails]
    exact ⟨h, fun hzero => absurd hzero hfails⟩
  · have hsend : kcp.send buffer = kcp.sendFragments buffer := by
      rw [send, if_neg (not_not.mpr hstream)]
    have hside : (kcp.sendFragments buffer).1.sendSide = _ :=
      congrArg View.send (sendFragments_view hok (not_lt.mp hcount))
    rw [if_neg hcount, if_pos rfl, hsend, hside]
    refine ⟨⟨h.nxt, h.known, h.held, ?_⟩, fun _ => not_lt.mp hcount⟩
    rw [h.accepted, List.append_assoc, hstream]
    rfl

theorem removeMessage_receives (h : kcp.receiveSide.Receives wnd t returned) :
    kcp.removeMessage.receiveSide.Receives wnd t
      (returned ++ (mergeFragment kcp.rcvQueue).1.map (·.content)) := by
  refine ⟨h.wnd, h.nxt, h.early, ?_⟩
  have hqueue := mergeFragment_append kcp.rcvQueue
  rw [h.returned, List.append_assoc]
  congr 1
  show kcp.rcvQueue.map (·.content) = _ ++ (mergeFragment kcp.rcvQueue).2.map (·.content)
  rw [← List.map_append, hqueue]

/-- The fragments that the application takes leave the queue, and others take their place. -/
theorem recv_receives (hok : kcp.view.Ok) (ht : t.Inv 65535 wnd) (h : kcp.Receives wnd t returned) (len : ℤ) :
    ∃ t', t.ByReceiver 65535 wnd t' ∧ (kcp.recv len).1.Receives wnd t'
      (if (kcp.recv len).2.isOk ∧ 0 ≤ len then
        returned ++ (mergeFragment kcp.rcvQueue).1.map (·.content) else returned) := by
  have hacks : (kcp.recv len).1.acklist = kcp.acklist := congrArg View.acks (recv_view len)
  cases hret : (kcp.recv len).2 with
  | error code =>
    have hsame : (kcp.recv len).1 = kcp := by
      unfold recv at hret ⊢
      split_ifs at hret ⊢
      · rfl
      · rfl
      · rfl
    rw [hsame, if_neg fun hpos => absurd hpos.1 Bool.false_ne_true]
    exact ⟨t, .refl ht, h⟩
  | ok data =>
    obtain ⟨-, -, -, hend⟩ := recv_eq_ok hret
    have hmove : ∀ {k : Ikcpcb} {returned' : List Content} {full : Bool}, k.receiveSide.Fits →
        k.receiveSide.Receives wnd t returned' → (kcp.recv len).1 = k.moveAvailable.recover full →
        ∃ t', t.ByReceiver 65535 wnd t' ∧ (kcp.recv len).1.Receives wnd t' returned' := by
      intro k returned' full hfits hk heq
      obtain ⟨t', hby, htold, h'⟩ := moveAvailable_receives ht hfits hk
      refine ⟨t', hby, ?_, fun a ha => ?_⟩
      · rw [heq, recover_receiveSide]
        exact h'
      · obtain ⟨n, hn, hp⟩ := h.acks a (hacks ▸ ha)
        exact ⟨n, hn, hp.mono hby.mono htold⟩
    by_cases hlen : len < 0
    · rw [if_pos hlen] at hend
      rw [if_neg fun hpos => absurd hpos.2 (not_le.mpr hlen)]
      exact hmove hok.receive.toFits h.side hend
    · rw [if_neg hlen] at hend
      rw [if_pos ⟨rfl, not_lt.mp hlen⟩]
      exact hmove (removeMessage_fits hok.receive.toFits) (removeMessage_receives h.side) hend

end Ikcpcb

end KkLicode.Ikcp
