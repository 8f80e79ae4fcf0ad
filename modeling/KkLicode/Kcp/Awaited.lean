import KkLicode.Kcp.OwnEntry
import KkLicode.Kcp.Peers

/-! What the two ends of a handshake hold each other to. The record a server makes for a
SYN has no control block before the ACK comes, so nothing can free it: the server waits
for the ACK it announced in its SYNACK until it is linked as the ACK says. A client sends
an ACK only for a SYNACK it was sent. -/

namespace KkLicode.Kcp

/-- The conversation and the MTU of the ACK that a record without a control block waits for. -/
def KcpInfo.awaited (info : KcpInfo) : Option (UInt32 × UInt16) :=
  if info.state = .synAck ∧ info.kcp = none then some (info.conv, info.mtu) else none

namespace CKKkcp

variable {inetAddr : String → UInt32} {n n' m : CKKkcp} {now p : ℕ} {info info' : KcpInfo}
  {c : Control} {k : String} {e : Event} {addr : KKAddress} {s d : UInt32} {x : UInt32 × UInt16}

/-- The conversation and the MTU of the ACK that an entry waits for. -/
def awaits (n : CKKkcp) (k : String) : Option (UInt32 × UInt16) :=
  (n.entry k).bind KcpInfo.awaited

theorem awaits_eq_some : n.awaits k = some x ↔ ∃ p info, n.conIPInfoMap.key1Find k = some p ∧
    n.heap p = some info ∧ info.awaited = some x := by
  simp only [awaits, entry, Option.bind_eq_some_iff]
  constructor
  · rintro ⟨info, ⟨p, hp, hi⟩, hx⟩
    exact ⟨p, info, hp, hi, hx⟩
  · rintro ⟨p, info, hp, hi, hx⟩
    exact ⟨info, ⟨p, hp, hi⟩, hx⟩

theorem awaited_eq_some : info.awaited = some x ↔
    (info.state = .synAck ∧ info.kcp = none) ∧ (info.conv, info.mtu) = x := by
  simp [KcpInfo.awaited]

/-- The ACK that is waited for is accepted. -/
theorem accepts_of_awaits (h : n.awaits k = some (c.conv, c.mtu)) :
    ∃ info ∈ n.entry k, Accepts info c := by
  obtain ⟨info, hi, hx⟩ := Option.bind_eq_some_iff.mp h
  obtain ⟨⟨hs, -⟩, hx⟩ := awaited_eq_some.mp hx
  exact ⟨info, hi, hs, (Prod.mk.inj hx).1, (Prod.mk.inj hx).2⟩

/-! ### The server waits -/

/-- Whoever waited for an ACK still does. -/
def StillAwaits (n n' : CKKkcp) : Prop := ∀ k x, n.awaits k = some x → n'.awaits k = some x

namespace StillAwaits

theorem refl (n : CKKkcp) : StillAwaits n n := fun _ _ h => h

theorem trans (h : StillAwaits n m) (h' : StillAwaits m n') : StillAwaits n n' :=
  fun k x hx => h' k x (h k x hx)

theorem same (h : StillAwaits n m) (hs : SameTable m n') : StillAwaits n n' := by
  intro k x hx
  rw [awaits, entry, hs.conIPInfoMap, hs.heap]
  exact h k x hx

theorem setInfo (info' : KcpInfo) (hi : n.heap p = some info) (h : info'.awaited = info.awaited) :
    StillAwaits n (n.setInfo p info') := by
  intro k x hx
  obtain ⟨q, i, hq, hiq, hx⟩ := awaits_eq_some.mp hx
  by_cases hqp : q = p
  · subst hqp
    obtain rfl := Option.some.inj (hi.symm.trans hiq)
    exact awaits_eq_some.mpr ⟨q, info', hq, setInfo_heap_self .., h.trans hx⟩
  · exact awaits_eq_some.mpr ⟨q, i, hq, (setInfo_heap_ne n hqp info').trans hiq, hx⟩

/-- What is freed has a control block and does not wait. -/
theorem freed (h : Named n) (hp : n.conIPInfoMap.key1Find k = some p) (hi : n.heap p = some info)
    (hk : info.kcp.isSome) (needMsg : Bool) : StillAwaits n (n.freed p info needMsg) := by
  intro j x hx
  obtain ⟨q, i, hq, hiq, hx⟩ := awaits_eq_some.mp hx
  have hne : q ≠ p := by
    rintro rfl
    obtain rfl := Option.some.inj (hi.symm.trans hiq)
    obtain ⟨⟨-, hnone⟩, -⟩ := awaited_eq_some.mp hx
    rw [hnone] at hk
    cases hk
  have hj : j ≠ k := by
    rintro rfl
    exact hne (Option.some.inj (hq.symm.trans hp))
  obtain ⟨hkey, hheap⟩ := Untouched.freed h hp hi hj needMsg
  exact awaits_eq_some.mpr ⟨q, i, hkey.trans hq, (hheap q hq).trans hiq, hx⟩

theorem addInfo (h : Named n) (hp : n.conIPInfoMap.key1Find k = none) (info : KcpInfo) :
    StillAwaits n (n.addInfo k info) := by
  intro j x hx
  obtain ⟨q, i, hq, hiq, hx⟩ := awaits_eq_some.mp hx
  have hj : j ≠ k := by
    rintro rfl
    cases hp.symm.trans hq
  have hu := Untouched.addInfo (Untouched.refl n j) (h.entry_lt j) hj info
  exact awaits_eq_some.mpr ⟨q, i, hu.1.trans hq, (hu.2 q hq).trans hiq, hx⟩

end StillAwaits

/-- The record of a SYN waits for the ACK that its SYNACK asks for. -/
theorem addInfo_awaits (hp : n.conIPInfoMap.key1Find k = none) (hx : info.awaited = some x) :
    (n.addInfo k info).awaits k = some x := by
  refine awaits_eq_some.mpr ⟨n.allocated, info, ?_, addInfo_heap_self .., hx⟩
  unfold CKKkcp.addInfo
  rw [TwoKeyMap.key1Find_key1Insert, if_pos rfl, hp]
  rfl

theorem onSyn_awaits (h : Named n) (hn : n.onSyn now c s d addr = some n') :
    StillAwaits n n' ∧
      n'.awaits (synAddr s addr).toString = some (n.synConv c, synMtu c) := by
  obtain ⟨m, info, hm, hinfo, rfl⟩ := onSyn_cases hn
  have hkey : info.addr.toString = (synAddr s addr).toString := by rw [hinfo, synInfo_addr]
  have hx : info.awaited = some (n.synConv c, synMtu c) := by
    rw [awaited_eq_some, hinfo]
    simp
  have hstart : SameTable n (n.synStart c s addr) := ⟨rfl, rfl, rfl⟩
  have hm' : StillAwaits n m ∧ Named m ∧ m.conIPInfoMap.key1Find info.addr.toString = none := by
    rw [hkey]
    rcases freeAt_cases hm with ⟨hp, rfl⟩ | ⟨p, old, hp, hi, hk, rfl⟩
    · exact ⟨(StillAwaits.refl n).same hstart, h.same hstart, hp⟩
    · refine ⟨StillAwaits.freed h hp hi hk false, (h.same hstart).freed hp hi false, ?_⟩
      rw [freed_conIPInfoMap, TwoKeyMap.key1Find_key1Del, if_pos ((h.same hstart).key_eq hp hi).symm]
  obtain ⟨hstill, hnamed, hfree⟩ := hm'
  constructor
  · exact (hstill.trans (StillAwaits.addInfo hnamed hfree info)).same ⟨rfl, rfl, rfl⟩
  · rw [← hkey]
    exact addInfo_awaits hfree hx

/-- An entry stops waiting for an ACK when it is linked by it. -/
theorem onAck_awaits (hn : n.onAck now c s d addr = some n') (k : String) (h : n.awaits k = some x) :
    n'.awaits k = some x ∨ n'.linkOf k = some x := by
  obtain ⟨p, info, hp, hi, ⟨-, rfl⟩ | rfl⟩ := onAck_cases hn
  · obtain ⟨q, i, hq, hiq, hx⟩ := awaits_eq_some.mp h
    by_cases hqp : q = p
    · subst hqp
      obtain rfl := Option.some.inj (hi.symm.trans hiq)
      obtain ⟨-, rfl⟩ := awaited_eq_some.mp hx
      exact .inr (linkOf_eq_some.mpr ⟨q, _, hq, openKcp_heap_self n (senderKey s addr) q { info with
        state := .link, sendtick := now }, rfl⟩)
    · exact .inl (awaits_eq_some.mpr ⟨q, i, hq, (openKcp_heap_ne n (senderKey s addr) { info with
        state := .link, sendtick := now } hqp).trans hiq, hx⟩)
  · exact .inl (StillAwaits.setInfo { info with sendtick := now } hi rfl k x h)

theorem onKcpHeart_awaits (hn : n.onKcpHeart now c addr = some n') : StillAwaits n n' := by
  obtain ⟨-, rfl⟩ | ⟨p, info, -, hi, ⟨-, rfl⟩ | ⟨-, rfl⟩⟩ := onKcpHeart_cases hn
  · exact .refl n
  · exact StillAwaits.setInfo { info with sendtick := now, rectick := now } hi rfl
  · exact StillAwaits.setInfo { info with sendtick := now } hi rfl

/-- No entry has the empty key, under which a link-lost message is looked up. -/
theorem onKckLost_awaits (h : Named n) (hn : n.onKckLost addr = some n') : StillAwaits n n' := by
  obtain rfl | ⟨p, info, hp, hi, -, rfl⟩ := onKckLost_cases hn
  · exact .refl n
  · exact absurd (h.key_eq hp hi) (KKAddress.toString2_ne_empty _ _)

theorem onConHandle_awaits (h : Named n) (hc : Speaks false c.msgId)
    (hn : n.onConHandle now c s d addr = some n') (k : String) (hx : n.awaits k = some x) :
    n'.awaits k = some x ∨ n'.linkOf k = some x := by
  unfold onConHandle at hn
  cases hm : c.msgId <;> simp only [hm] at hn hc
  case disConnect => exact absurd rfl hc.1
  case syn => exact .inl ((onSyn_awaits h hn).1 k x hx)
  case synAck => exact absurd rfl hc.2.1
  case ack => exact onAck_awaits hn k hx
  case link => exact absurd rfl hc.2.2
  case kcpHeart => exact .inl (onKcpHeart_awaits hn k x hx)
  case kckLost => exact .inl (onKckLost_awaits h hn k x hx)
  all_goals exact .inl (Option.some.inj hn ▸ hx)

theorem manage_awaits (h : Named n) (hp : n.conIPInfoMap.key1Find k = some p)
    {r : CKKkcp × Option (Option String)} (hr : n.manage now p = some r) : StillAwaits n r.1 := by
  obtain ⟨info, hi, hr⟩ := manage_cases hr
  cases hr with
  | keep a b t ds hds =>
    have hset : StillAwaits n (n.setInfo p (info.timed a b t)) :=
      StillAwaits.setInfo (info.timed a b t) hi rfl
    exact hset.same ⟨rfl, rfl, rfl⟩
  | free hk => exact StillAwaits.freed h hp hi hk true

theorem connMgrPass_awaits (h : Named n) (hn : n.connMgrPass now = some n') : StillAwaits n n' := by
  have hpass : Named n' ∧ StillAwaits n n' :=
    passFrom_invariant (P := fun m => Named m ∧ StillAwaits n m)
      (fun m k p r hm hp hr => ⟨hm.1.manage hp hr, hm.2.trans (manage_awaits hm.1 hp hr)⟩)
      ⟨h, .refl n⟩ hn
  exact hpass.2

/-- The server waits for an ACK until it is linked as the ACK says. -/
theorem step_awaits (h : Named n) (ha : Allowed true e) (hn : n.step inetAddr e = some n')
    (hx : n.awaits k = some x) : n'.awaits k = some x ∨ n'.linkOf k = some x := by
  cases e with
  | control now ip port s d c => exact onConHandle_awaits h ha.2.2 hn k hx
  | connMgrPass now => exact .inl (connMgrPass_awaits h hn k x hx)
  | connect now ip port => cases ha
  | handleCmd => cases ha
  | _ => exact ha.elim

/-! ### The client acknowledges -/

/-- Every ACK that was sent is `P`, and so is every one that may be sent again. -/
structure Acks (P : UInt32 × UInt16 → Prop) (n : CKKkcp) : Prop where
  record : ∀ p info, n.heap p = some info → info.state = .ack → P (info.conv, info.mtu)
  sent : ∀ d ∈ n.sent, ∀ c, d.body = .control c → c.msgId = .ack → P (c.conv, c.mtu)

namespace Acks

variable {P Q : UInt32 × UInt16 → Prop}

theorem start (automaticHeart : Bool) : Acks P (start automaticHeart) where
  record _ _ h := nomatch h
  sent _ h := nomatch h

theorem imp (h : Acks P n) (hPQ : ∀ x, P x → Q x) : Acks Q n where
  record p info hi hs := hPQ _ (h.record p info hi hs)
  sent d hd c hc ha := hPQ _ (h.sent d hd c hc ha)

theorem congr (h : Acks P n) (hh : m.heap = n.heap) (hs : m.sent = n.sent) : Acks P m where
  record := by simpa only [hh] using h.record
  sent := by simpa only [hs] using h.sent

theorem sends (h : Acks P n) (hh : m.heap = n.heap)
    (hs : Sends n m fun l => l.msgId = .ack → P (l.conv, l.mtu)) : Acks P m where
  record := by simpa only [hh] using h.record
  sent d hd c hc ha := by
    obtain ⟨ds, hds, hP⟩ := hs
    rw [hds] at hd
    rcases List.mem_append.mp hd with hd | hd
    · exact h.sent d hd c hc ha
    · exact hP d hd c hc ha

theorem setInfo (h : Acks P n) (hi : info.state = .ack → P (info.conv, info.mtu)) :
    Acks P (n.setInfo p info) where
  record q i hq hs := by
    by_cases hqp : q = p
    · subst hqp
      rw [setInfo_heap_self] at hq
      cases hq
      exact hi hs
    · rw [setInfo_heap_ne n hqp] at hq
      exact h.record q i hq hs
  sent := h.sent

theorem freed (h : Acks P n) (needMsg : Bool) : Acks P (n.freed p info needMsg) where
  record q i hq hs := h.record q i (heap_of_freed hq).2 hs
  sent := by
    rw [freed_sent]
    exact h.sent

theorem addInfo (h : Acks P n) (hi : info.state = .ack → P (info.conv, info.mtu)) :
    Acks P (n.addInfo k info) :=
  (h.setInfo (p := n.allocated) hi).congr rfl rfl

/-- What a client is told changes its records before it answers. -/
theorem onConHandle_heap (h : Acks P n) (hc : Speaks true c.msgId)
    (hP : c.msgId = .synAck → P (c.conv, c.mtu))
    (hn : n.onConHandle now c s d addr = some n') : Acks P { n with heap := n'.heap } := by
  unfold onConHandle at hn
  cases hm : c.msgId <;> simp only [hm] at hn hc hP
  case disConnect => exact absurd rfl hc.1
  case syn => exact absurd rfl hc.2.1
  case ack => exact absurd rfl hc.2.2
  case synAck =>
    obtain ⟨p, info, -, -, rfl⟩ := onSynAck_cases hn
    have hset : Acks P (n.setInfo p { info with
        state := .ack, sendtick := now, conv := c.conv, handShake := 0, mtu := c.mtu
        kcp := some { id := n.kcps, conv := c.conv } }) := h.setInfo fun _ => hP trivial
    exact hset.congr rfl rfl
  case link =>
    obtain rfl | ⟨p, info, -, hi, -, rfl⟩ := onLink_cases hn
    · exact h
    · have hset : Acks P (n.setInfo p { info with
          state := .link, sendtick := now, handShake := 0 }) := h.setInfo nofun
      exact hset.congr rfl rfl
  case kcpHeart =>
    obtain ⟨-, rfl⟩ | ⟨p, info, -, hi, ⟨-, rfl⟩ | ⟨-, rfl⟩⟩ := onKcpHeart_cases hn
    · exact h
    · have hset : Acks P (n.setInfo p { info with sendtick := now, rectick := now }) :=
        h.setInfo (h.record p info hi)
      exact hset.congr rfl rfl
    · have hset : Acks P (n.setInfo p { info with sendtick := now }) :=
        h.setInfo (h.record p info hi)
      exact hset.congr rfl rfl
  case kckLost =>
    obtain rfl | ⟨p, info, -, -, -, rfl⟩ := onKckLost_cases hn
    · exact h
    · have hset : Acks P (n.setInfo p { info with state := .kckLost }) := h.setInfo nofun
      have hfreed : Acks P ((n.setInfo p { info with state := .kckLost }).freed p
          { info with state := .kckLost } true) := hset.freed true
      exact ⟨hfreed.record, h.sent⟩
  all_goals exact Option.some.inj hn ▸ h

theorem onConHandle (h : Acks P n) (hc : Speaks true c.msgId)
    (hP : c.msgId = .synAck → P (c.conv, c.mtu))
    (hn : n.onConHandle now c s d addr = some n') : Acks P n' := by
  obtain ⟨ds, hds, hanswers⟩ := onConHandle_sends hn
  refine (h.onConHandle_heap hc hP hn).sends rfl ⟨ds, hds, fun d hd l hl hack => ?_⟩
  obtain ⟨hsyn, hx⟩ := (hanswers d hd l hl).ack hack
  rw [hx]
  exact hP hsyn

theorem manage (h : Acks P n) {r : CKKkcp × Option (Option String)}
    (hn : n.manage now p = some r) : Acks P r.1 := by
  obtain ⟨info, hi, hr⟩ := manage_cases hn
  cases hr with
  | keep a b k ds hds =>
    have hset : Acks P (n.setInfo p (info.timed a b k)) := h.setInfo (h.record p info hi)
    refine hset.sends rfl ⟨ds, rfl, fun d hd c hc hack => ?_⟩
    rcases (hds d hd).2.1 with hb | hb | ⟨-, -, hb⟩ | ⟨-, -, hb⟩ | ⟨-, hs, hb⟩ <;> rw [hb] at hc <;>
      cases hc
    · cases hack
    · cases hack
    · exact h.record p info hi hs
  | free => exact h.freed true

theorem connMgrPass (h : Acks P n) (hn : n.connMgrPass now = some n') : Acks P n' :=
  passFrom_invariant (fun _ _ _ _ h _ hr => h.manage hr) h hn

theorem connect (h : Acks P n) {ip : String} {port : ℤ}
    (hn : n.connect inetAddr now ip port = some n') : Acks P n' := by
  obtain rfl | ⟨-, rfl⟩ := connect_cases hn
  · exact h
  · refine Acks.addInfo (h.congr rfl rfl) fun hs => ?_
    cases hs

theorem handleCmd (h : Acks P n) : Acks P n.handleCmd := by
  unfold CKKkcp.handleCmd
  cases n.sendUdpQue with
  | nil => exact h
  | cons cmd rest =>
    dsimp only
    cases cmd.cmd with
    | connect =>
      refine h.sends rfl (Sends.said (c := putsyn cmd.conv cmd.nDestTranId) rfl fun hack => ?_)
      cases hack
    | disConnect =>
      refine h.sends rfl ⟨[_], rfl, fun d hd c hc hack => ?_⟩
      rw [List.mem_singleton.mp hd] at hc
      have hc : (if (cmd.nTranId > 0 && cmd.nDestTranId = 0) = true then Body.delTranId
        else .control (putkcpdisconnect cmd.conv)) = .control c := hc
      split_ifs at hc
      cases hc
      cases hack

end Acks

end CKKkcp

end KkLicode.Kcp
