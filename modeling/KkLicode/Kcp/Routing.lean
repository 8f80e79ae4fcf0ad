import KkLicode.Base.Runs
import KkLicode.Kcp.Steps

/-! Data that is sent on a conversation goes to the peer it was announced for, as
long as no conversation is entered that another record holds and no record is
linked without a control block. -/

namespace KkLicode.Kcp

open Base

namespace CKKkcp

variable (inetAddr : String → UInt32)

/-- A step of a run, which ends where a step has no result. -/
def advance (n : Option CKKkcp) (e : Event) : Option CKKkcp × Unit :=
  (n.bind fun n => n.step inetAddr e, ())

/-- A packet told the application of the conversation. -/
def Announced (que : List KKPacket) (info : KcpInfo) : Prop :=
  ∃ packet ∈ que, (packet.msgId = .linkAccepted ∨ packet.msgId = .linkIncoming) ∧
    packet.conId = info.conv ∧ packet.addr = info.addr

instance Announced.decidable (que : List KKPacket) (info : KcpInfo) : Decidable (Announced que info) :=
  inferInstanceAs (Decidable (∃ packet ∈ que, _))

/-- The conversation may be entered for the record under a key. -/
def Enters (n : CKKkcp) (ipport : String) (conv : UInt32) : Prop :=
  conv ≠ 0 ∧ ∀ q ∈ n.conIPInfoMap.key2Find conv, n.conIPInfoMap.key1Find ipport = some q

/-- A SYNACK, and an ACK that is accepted, has a conversation that may be entered, and a
LINK that is accepted meets a record with a control block. -/
def SoundControl (n : CKKkcp) (ipport : String) (c : Control) : Prop :=
  (c.msgId = .synAck → n.Enters ipport c.conv) ∧
  (c.msgId = .ack → ∀ p ∈ n.conIPInfoMap.key1Find ipport, ∀ info ∈ n.heap p,
    info.state = .synAck ∧ info.conv = c.conv ∧ info.mtu = c.mtu → n.Enters ipport c.conv) ∧
  (c.msgId = .link → ∀ p ∈ n.conIPInfoMap.key1Find ipport, ∀ info ∈ n.heap p,
    info.conv = c.conv ∧ info.mtu = c.mtu → info.kcp.isSome)

instance Enters.decidable (n : CKKkcp) (ipport : String) (conv : UInt32) :
    Decidable (n.Enters ipport conv) :=
  inferInstanceAs (Decidable (_ ∧ ∀ q ∈ n.conIPInfoMap.key2Find conv, _))

instance SoundControl.decidable (n : CKKkcp) (ipport : String) (c : Control) :
    Decidable (n.SoundControl ipport c) :=
  inferInstanceAs (Decidable (_ ∧ _ ∧ _))

def Sound (n : CKKkcp) : Event → Prop
  | .control _ ip port nTranId _ c => n.SoundControl (senderKey nTranId (n.adr ip port)) c
  | _ => True

instance Sound.decidable (n : CKKkcp) : ∀ e, Decidable (n.Sound e)
  | .control _ ip port nTranId _ c => SoundControl.decidable n (senderKey nTranId (n.adr ip port)) c
  | .connect .. | .connectBy .. | .connectTranServer .. | .disConnect .. | .disConnectFrom ..
  | .stablySend .. | .handleCmd | .connMgrPass .. | .tranId .. | .kcp .. => isTrue trivial

structure Wf (n : CKKkcp) : Prop where
  entry_lt : ∀ k p, n.conIPInfoMap.key1Find k = some p → p < n.allocated
  entry_inj : ∀ k k' p, n.conIPInfoMap.key1Find k = some p →
    n.conIPInfoMap.key1Find k' = some p → k = k'
  partner : ∀ p c, n.conIPInfoMap.secondKey p = some c → c ≠ 0 →
    n.conIPInfoMap.key2Find c = some p
  own : ∀ k p info, n.conIPInfoMap.key1Find k = some p → n.heap p = some info → info.kcp.isSome →
    info.conv ≠ 0 ∧ n.conIPInfoMap.key2Find info.conv = some p
  linked : ∀ p info, n.heap p = some info → info.state = .link →
    info.kcp.isSome ∧ Announced n.recPacketQue info

variable {inetAddr} {n n' : CKKkcp} {now p : ℕ} {info info' : KcpInfo} {k : String} {c : Control}
  {nTranId nDestTranId : UInt32} {addr : KKAddress}

theorem Announced.mono {que que' : List KKPacket} (h : que ⊆ que') (ha : Announced que info) :
    Announced que' info := by
  obtain ⟨packet, hp, ha⟩ := ha
  exact ⟨packet, h hp, ha⟩

theorem Wf.start (automaticHeart : Bool) : Wf (start automaticHeart) where
  entry_lt k p h := by simp [CKKkcp.start] at h
  entry_inj k k' p h := by simp [CKKkcp.start] at h
  partner p c h := by cases h
  own k p info h := by simp [CKKkcp.start] at h
  linked p info h := by cases h

namespace Wf

/-- Counters, commands and datagrams do not matter, and packets are only added. -/
theorem congr (h : Wf n) (hm : n'.conIPInfoMap = n.conIPInfoMap) (hh : n'.heap = n.heap)
    (ha : n'.allocated = n.allocated) (hq : n.recPacketQue ⊆ n'.recPacketQue) : Wf n' where
  entry_lt := by simpa only [hm, ha] using h.entry_lt
  entry_inj := by simpa only [hm] using h.entry_inj
  partner := by simpa only [hm] using h.partner
  own := by simpa only [hm, hh] using h.own
  linked p info hi hl := by
    rw [hh] at hi
    exact (h.linked p info hi hl).imp_right (.mono hq)

theorem kksend (h : Wf n) (d : Datagram) : Wf (n.kksend d) := h.congr rfl rfl rfl (by simp [CKKkcp.kksend])

theorem sendControl (h : Wf n) : Wf (n.sendControl c nTranId nDestTranId addr) := h.kksend _

theorem putKKPacket (h : Wf n) (packet : KKPacket) : Wf (n.putKKPacket packet) :=
  h.congr rfl rfl rfl (by simp [CKKkcp.putKKPacket])

theorem setInfo (h : Wf n) (hi : n.heap p = some info) (hc : info'.conv = info.conv)
    (hk : info'.kcp = info.kcp)
    (hl : info'.state = .link → info'.kcp.isSome ∧ Announced n.recPacketQue info') :
    Wf (n.setInfo p info') where
  entry_lt := h.entry_lt
  entry_inj := h.entry_inj
  partner := h.partner
  own k q info'' hq hi' hkcp := by
    by_cases hqp : q = p
    · subst hqp
      rw [setInfo_heap_self, Option.some.injEq] at hi'
      subst hi'
      rw [hc]
      exact h.own k q info hq hi (hk ▸ hkcp)
    · rw [setInfo_heap_ne n hqp] at hi'
      exact h.own k q info'' hq hi' hkcp
  linked q info'' hi' hs := by
    by_cases hqp : q = p
    · subst hqp
      rw [setInfo_heap_self, Option.some.injEq] at hi'
      exact hi' ▸ hl (hi' ▸ hs)
    · rw [setInfo_heap_ne n hqp] at hi'
      exact h.linked q info'' hi' hs

theorem timed (h : Wf n) (hi : n.heap p = some info) (sendtick rectick : ℕ) (handShake : UInt8) :
    Wf (n.setInfo p (info.timed sendtick rectick handShake)) :=
  h.setInfo hi rfl rfl (h.linked p info hi)

theorem freed (h : Wf n) (needMsg : Bool) : Wf (n.freed p info needMsg) := by
  have key1Find_of {k : String} {q : ℕ}
      (hq : (n.freed p info needMsg).conIPInfoMap.key1Find k = some q) :
      k ≠ info.addr.toString ∧ n.conIPInfoMap.key1Find k = some q := by
    rw [freed_conIPInfoMap, TwoKeyMap.key1Find_key1Del] at hq
    split_ifs at hq with hk
    exact ⟨hk, hq⟩
  -- the second key that is deleted is no other value's
  have key2Find_of {q : ℕ} {c : UInt32} (hc : c ≠ 0) (hq : n.conIPInfoMap.key2Find c = some q)
      (hne : n.conIPInfoMap.key1Find info.addr.toString ≠ some q) :
      (n.freed p info needMsg).conIPInfoMap.key2Find c = some q := by
    rw [freed_conIPInfoMap]
    cases hv : n.conIPInfoMap.key1Find info.addr.toString with
    | none => rwa [TwoKeyMap.key2Find_key1Del_of_absent hv]
    | some v =>
      rw [TwoKeyMap.key2Find_key1Del hv, if_neg, hq]
      intro hs
      have hvc := h.partner v c hs hc
      rw [hq] at hvc
      exact hne (hv.trans hvc.symm)
  constructor
  · intro k q hq
    rw [freed_allocated]
    exact h.entry_lt k q (key1Find_of hq).2
  · intro k k' q hq hq'
    exact h.entry_inj k k' q (key1Find_of hq).2 (key1Find_of hq').2
  · intro q c hs hc
    apply key2Find_of hc (h.partner q c (TwoKeyMap.secondKey_of_key1Del hs) hc)
    intro hv
    rw [freed_conIPInfoMap, TwoKeyMap.secondKey_key1Del hv, if_pos rfl] at hs
    cases hs
  · intro k q i hq hi hkcp
    obtain ⟨hne, hq⟩ := key1Find_of hq
    obtain ⟨hc, hq2⟩ := h.own k q i hq (heap_of_freed hi).2 hkcp
    exact ⟨hc, key2Find_of hc hq2 fun hv => hne (h.entry_inj _ _ q hq hv)⟩
  · intro q i hi hs
    exact (h.linked q i (heap_of_freed hi).2 hs).imp_right (.mono (subset_freed ..))

theorem addInfo (h : Wf n) (hkcp : info.kcp = none) (hs : info.state ≠ .link) :
    Wf (n.addInfo k info) := by
  have key1Find_of {j : String} {q : ℕ}
      (hq : (n.addInfo k info).conIPInfoMap.key1Find j = some q) :
      (j = k ∧ q = n.allocated) ∨ (n.conIPInfoMap.key1Find j = some q ∧ q < n.allocated) := by
    unfold CKKkcp.addInfo at hq
    rw [TwoKeyMap.key1Find_key1Insert] at hq
    split_ifs at hq with hj
    · cases hk : n.conIPInfoMap.key1Find k with
      | none => exact .inl ⟨hj, by simpa [hk, eq_comm] using hq⟩
      | some v =>
        have hv : v = q := by simpa [hk] using hq
        exact .inr ⟨hj ▸ hv ▸ hk, h.entry_lt k q (hv ▸ hk)⟩
    · exact .inr ⟨hq, h.entry_lt j q hq⟩
  constructor
  · intro j q hq
    show q < n.allocated + 1
    rcases key1Find_of hq with ⟨-, rfl⟩ | ⟨-, hlt⟩ <;> omega
  · intro j j' q hq hq'
    rcases key1Find_of hq with ⟨rfl, rfl⟩ | ⟨hj, hlt⟩ <;>
      rcases key1Find_of hq' with ⟨rfl, hq'⟩ | ⟨hj', hlt'⟩
    · rfl
    · omega
    · omega
    · exact h.entry_inj j j' q hj hj'
  · intro q c hq hc
    unfold CKKkcp.addInfo at hq ⊢
    rw [TwoKeyMap.secondKey_key1Insert] at hq
    split_ifs at hq with hqa
    · cases hv : n.conIPInfoMap.secondKey n.allocated with
      | none => exact absurd (by simpa [hv] using hq.symm) hc
      | some v =>
        have hvc : v = c := by simpa [hv] using hq
        subst hqa hvc
        exact h.partner _ v hv hc
    · exact h.partner q c hq hc
  · intro j q i hq hi hi'
    rcases key1Find_of hq with ⟨-, rfl⟩ | ⟨hj, hlt⟩
    · rw [addInfo_heap_self, Option.some.injEq] at hi
      simp [← hi, hkcp] at hi'
    · rw [addInfo_heap_ne _ _ _ hlt.ne] at hi
      exact h.own j q i hj hi hi'
  · intro q i hi hl
    by_cases hq : q = n.allocated
    · rw [hq, addInfo_heap_self, Option.some.injEq] at hi
      exact absurd (hi ▸ hl) hs
    · rw [addInfo_heap_ne _ _ _ hq] at hi
      exact h.linked q i hi hl

theorem openKcp (h : Wf n) (hp : n.conIPInfoMap.key1Find k = some p) (he : n.Enters k info.conv)
    (hl : info.state = .link → Announced n.recPacketQue info) : Wf (n.openKcp k p info) := by
  have key2Find_self : (n.openKcp k p info).conIPInfoMap.key2Find info.conv = some p := by
    unfold CKKkcp.openKcp
    rw [TwoKeyMap.key2Find_key2insert, if_pos rfl]
    cases hq : n.conIPInfoMap.key2Find info.conv with
    | none => rfl
    | some q => exact congrArg some (Option.some.inj ((he.2 q hq).symm.trans hp))
  have key2Find_of {q : ℕ} {c : UInt32} (hq : n.conIPInfoMap.key2Find c = some q) :
      (n.openKcp k p info).conIPInfoMap.key2Find c = some q := by
    by_cases hc : c = info.conv
    · subst hc
      rw [key2Find_self, ← hp, he.2 q hq]
    · unfold CKKkcp.openKcp
      rwa [TwoKeyMap.key2Find_key2insert, if_neg hc]
  constructor
  · exact h.entry_lt
  · exact h.entry_inj
  · intro q c hq hc
    unfold CKKkcp.openKcp at hq
    rw [TwoKeyMap.secondKey_key2insert] at hq
    split_ifs at hq with hqp
    · cases hq
      exact hqp ▸ key2Find_self
    · exact key2Find_of (h.partner q c hq hc)
  · intro j q i hq hi hkcp
    by_cases hqp : q = p
    · subst hqp
      rw [openKcp_heap_self] at hi
      cases hi
      exact ⟨he.1, key2Find_self⟩
    · rw [openKcp_heap_ne _ _ _ hqp] at hi
      obtain ⟨hc, hq2⟩ := h.own j q i hq hi hkcp
      exact ⟨hc, key2Find_of hq2⟩
  · intro q i hi hs
    by_cases hqp : q = p
    · subst hqp
      rw [openKcp_heap_self] at hi
      cases hi
      exact ⟨rfl, hl hs⟩
    · rw [openKcp_heap_ne _ _ _ hqp] at hi
      exact h.linked q i hi hs

/-! ### Steps -/

variable {e : Event}

theorem freeAt (h : Wf n) (hn : n.freeAt k = some n') : Wf n' := by
  rcases freeAt_cases hn with ⟨-, rfl⟩ | ⟨p, info, -, -, -, rfl⟩
  · exact h
  · exact h.freed false

theorem onDisConnect (h : Wf n) (hn : n.onDisConnect addr = some n') : Wf n' := by
  obtain rfl | ⟨p, info, -, hi, rfl⟩ := onDisConnect_cases hn
  · exact h
  · exact h.setInfo hi rfl rfl (by nofun)

theorem onSyn (h : Wf n) (hn : n.onSyn now c nTranId nDestTranId addr = some n') : Wf n' := by
  obtain ⟨m, info, hm, rfl, rfl⟩ := onSyn_cases hn
  have hstart : Wf (n.synStart c nTranId addr) := h.congr rfl rfl rfl (List.Subset.refl _)
  exact ((hstart.freeAt hm).addInfo (by simp) (by simp)).sendControl

theorem onSynAck (h : Wf n) (he : n.Enters (senderKey nTranId addr) c.conv)
    (hn : n.onSynAck now c nTranId addr = some n') : Wf n' := by
  obtain ⟨p, info, hp, hi, rfl⟩ := onSynAck_cases hn
  exact (h.openKcp hp he (by nofun)).sendControl

theorem onAck (h : Wf n)
    (he : ∀ p ∈ n.conIPInfoMap.key1Find (senderKey nTranId addr), ∀ info ∈ n.heap p,
      info.state = .synAck ∧ info.conv = c.conv ∧ info.mtu = c.mtu →
      n.Enters (senderKey nTranId addr) c.conv)
    (hn : n.onAck now c nTranId nDestTranId addr = some n') : Wf n' := by
  obtain ⟨p, info, hp, hi, ⟨hm, rfl⟩ | rfl⟩ := onAck_cases hn
  · have hput := h.putKKPacket { msgId := .linkIncoming, conId := c.conv, addr := info.addr }
    have he' : n.Enters (senderKey nTranId addr)
        ({ info with state := .link, sendtick := now } : KcpInfo).conv := hm.2.1 ▸ he p hp info hi hm
    apply sendControl
    apply hput.openKcp hp he'
    intro _
    exact ⟨_, List.mem_append_right _ (List.mem_singleton_self _), .inr rfl, hm.2.1.symm, rfl⟩
  · exact (h.timed hi now info.rectick info.handShake).sendControl

theorem onLink (h : Wf n)
    (he : ∀ p ∈ n.conIPInfoMap.key1Find (senderKey nTranId addr), ∀ info ∈ n.heap p,
      info.conv = c.conv ∧ info.mtu = c.mtu → info.kcp.isSome)
    (hn : n.onLink now c nTranId addr = some n') : Wf n' := by
  obtain rfl | ⟨p, info, hp, hi, hm, rfl⟩ := onLink_cases hn
  · exact h.sendControl
  · have hput := h.putKKPacket { msgId := .linkAccepted, conId := c.conv, addr := info.addr }
    show Wf ((n.putKKPacket _).setInfo p
      { info with state := .link, sendtick := now, handShake := 0 })
    refine hput.setInfo hi ?_ ?_ fun _ => ⟨he p hp info hi hm, ?_⟩
    · rfl
    · rfl
    · exact ⟨_, List.mem_append_right _ (List.mem_singleton_self _), .inl rfl, hm.1.symm, rfl⟩

theorem onKcpHeart (h : Wf n) (hn : n.onKcpHeart now c addr = some n') : Wf n' := by
  obtain ⟨-, rfl⟩ | ⟨p, info, -, hi, ⟨-, rfl⟩ | ⟨-, rfl⟩⟩ := onKcpHeart_cases hn
  · exact h.sendControl
  · exact (h.timed hi now now info.handShake).putKKPacket _
  · exact (h.timed hi now info.rectick info.handShake).sendControl.putKKPacket _

theorem onKckLost (h : Wf n) (hn : n.onKckLost addr = some n') : Wf n' := by
  obtain rfl | ⟨p, info, -, hi, -, rfl⟩ := onKckLost_cases hn
  · exact h.putKKPacket _
  · have hset : Wf (n.setInfo p { info with state := .kckLost }) := h.setInfo hi rfl rfl (by nofun)
    exact (hset.freed true).putKKPacket _

theorem onConHandle (h : Wf n) {ip : UInt32} {port : UInt16}
    (hs : n.Sound (.control now ip port nTranId nDestTranId c))
    (hn : n.onConHandle now c nTranId nDestTranId (n.adr ip port) = some n') : Wf n' := by
  unfold CKKkcp.onConHandle at hn
  obtain ⟨hsynAck, hack, hlink⟩ := hs
  cases hc : c.msgId <;> simp only [hc] at hn
  case disConnect => exact h.onDisConnect hn
  case syn => exact h.onSyn hn
  case synAck => exact h.onSynAck (hsynAck hc) hn
  case ack => exact h.onAck (hack hc) hn
  case link => exact h.onLink (hlink hc) hn
  case kcpHeart => exact h.onKcpHeart hn
  case unLink => exact Option.some.inj hn ▸ h.putKKPacket _
  case kckLost => exact h.onKckLost hn
  all_goals exact Option.some.inj hn ▸ h

theorem onTranId (h : Wf n) {tranId : UInt32} (hn : n.onTranId now tranId addr = some n') :
    Wf n' := by
  obtain rfl | ⟨p, info, -, hi, rfl⟩ := onTranId_cases hn
  · exact h
  · apply putKKPacket
    exact h.setInfo hi rfl rfl (by nofun)

theorem onKcp (h : Wf n) (hn : n.onKcp now nTranId nDestTranId addr = some n') : Wf n' := by
  obtain ⟨-, rfl⟩ | ⟨p, info, -, hi, rfl⟩ := onKcp_cases hn
  · exact h.sendControl
  · exact h.timed hi now now info.handShake

theorem manage (h : Wf n) {r : CKKkcp × Option (Option String)} (hn : n.manage now p = some r) :
    Wf r.1 := by
  obtain ⟨info, hi, hr⟩ := manage_cases hn
  cases hr with
  | keep a b k ds hd =>
    exact (h.timed hi a b k).congr rfl rfl rfl (List.Subset.refl _)
  | free => exact h.freed true

theorem connMgrPass (h : Wf n) (hn : n.connMgrPass now = some n') : Wf n' :=
  passFrom_invariant (fun _ _ _ _ hw _ hr => hw.manage hr) h hn

theorem connect (h : Wf n) {ip : String} {port : ℤ}
    (hn : n.connect inetAddr now ip port = some n') : Wf n' := by
  obtain rfl | ⟨-, rfl⟩ := connect_cases hn
  · exact h
  · refine addInfo (h.congr rfl rfl rfl (List.Subset.refl _)) ?_ ?_
    · rfl
    · nofun

theorem connectBy (h : Wf n) {tranIp : String} {port : UInt16}
    (hn : n.connectBy inetAddr now tranIp port nDestTranId = some n') : Wf n' := by
  unfold CKKkcp.connectBy at hn
  split at hn
  · exact Option.some.inj hn ▸ h
  · obtain ⟨relayInfo, hi, hn⟩ := Option.bind_eq_some_iff.mp hn
    split at hn
    · exact Option.some.inj hn ▸ h
    · cases hn
      have hcur : Wf { n with curConv := n.curConv + 1 } := h.congr rfl rfl rfl (List.Subset.refl _)
      refine congr (hcur.addInfo ?_ ?_) rfl rfl rfl (List.Subset.refl _)
      · rfl
      · nofun

theorem connectTranServer (h : Wf n) {ip : String} {port : UInt16}
    (hn : n.connectTranServer inetAddr now ip port = some n') : Wf n' := by
  unfold CKKkcp.connectTranServer at hn
  split at hn
  · cases hn
  · cases hn
    refine congr (h.addInfo ?_ ?_) rfl rfl rfl (List.Subset.refl _)
    · rfl
    · nofun

theorem disConnect (h : Wf n) {id : UInt32} (hn : n.disConnect id = some n') : Wf n' := by
  unfold CKKkcp.disConnect at hn
  split at hn
  · exact Option.some.inj hn ▸ h
  · obtain ⟨info, hi, hn⟩ := Option.bind_eq_some_iff.mp hn
    cases hn
    exact h.congr rfl rfl rfl (List.Subset.refl _)

theorem disConnectFrom (h : Wf n) {ip : String} {port : ℤ}
    (hn : n.disConnectFrom now ip port nDestTranId = some n') : Wf n' := by
  unfold CKKkcp.disConnectFrom at hn
  dsimp only at hn
  split at hn
  · exact Option.some.inj hn ▸ h
  · obtain ⟨info, hi, hn⟩ := Option.bind_eq_some_iff.mp hn
    cases hn
    refine congr (h.setInfo hi ?_ ?_ ?_) rfl rfl rfl (List.Subset.refl _)
    · rfl
    · rfl
    · nofun

theorem handleCmd (h : Wf n) : Wf n.handleCmd := by
  unfold CKKkcp.handleCmd
  split
  · exact h
  · dsimp only
    split <;> exact h.congr rfl rfl rfl (List.Subset.refl _)

theorem stablySend (h : Wf n) {id : UInt32} {r : CKKkcp × Option ℕ}
    (hn : n.stablySend now id = some r) : Wf r.1 := by
  unfold CKKkcp.stablySend at hn
  dsimp only at hn
  set m : CKKkcp := if id = 0 then { n with conId := n.conIPInfoMap.key2begin.getD n.conId } else n
    with hm
  have hw : Wf m := by
    rw [hm]
    split_ifs
    · exact h.congr rfl rfl rfl (List.Subset.refl _)
    · exact h
  split at hn
  · cases hn
    exact hw
  · obtain ⟨info, hi, hn⟩ := Option.bind_eq_some_iff.mp hn
    obtain ⟨kcp, hk, hn⟩ := Option.bind_eq_some_iff.mp hn
    cases hn
    dsimp only
    split_ifs
    · exact hw.timed hi now info.rectick info.handShake
    · exact hw.timed hi info.sendtick now info.handShake

theorem step (h : Wf n) (hs : n.Sound e) (hn : n.step inetAddr e = some n') : Wf n' := by
  cases e with
  | connect now ip port => exact h.connect hn
  | connectBy now tranIp port nDestTranId => exact h.connectBy hn
  | connectTranServer now ip port => exact h.connectTranServer hn
  | disConnect id => exact h.disConnect hn
  | disConnectFrom now ip port nDestTranId => exact h.disConnectFrom hn
  | stablySend now id =>
    obtain ⟨r, hr, rfl⟩ := Option.map_eq_some_iff.mp hn
    exact h.stablySend hr
  | handleCmd => exact Option.some.inj hn ▸ h.handleCmd
  | connMgrPass now => exact h.connMgrPass hn
  | control now ip port nTranId nDestTranId c => exact h.onConHandle hs hn
  | tranId now ip port tranId => exact h.onTranId hn
  | kcp now ip port nTranId nDestTranId => exact h.onKcp hn

/-- A run whose steps are all sound keeps the tables together. -/
theorem run {automaticHeart : Bool} {es : List Event}
    (hs : Runs.Steps (advance inetAddr) (fun s e => ∀ n ∈ s, n.Sound e)
      (some (CKKkcp.start automaticHeart)) es)
    (hn : Runs.final (advance inetAddr) (some (CKKkcp.start automaticHeart)) es = some n) : Wf n := by
  have h := hs.invariant (P := fun s => ∀ n ∈ s, Wf n) ?_ ?_
  · exact h n hn
  · intro s e hw hs n' hn'
    obtain ⟨n, hn, hstep⟩ := Option.bind_eq_some_iff.mp hn'
    exact (hw n hn).step (hs n hn) hstep
  · rintro n ⟨⟩
    exact Wf.start automaticHeart

end Wf

theorem stablySend_linked (h : Wf n) (hp : n.conIPInfoMap.key1Find k = some p)
    (hi : n.heap p = some info) (hl : info.state = .link) :
    (n.stablySend now info.conv).map (·.2) = some (some p) := by
  obtain ⟨hc, hq⟩ := h.own k p info hp hi (h.linked p info hi hl).1
  obtain ⟨kcp, hkcp⟩ := Option.isSome_iff_exists.mp (h.linked p info hi hl).1
  simp [stablySend, sendId, hc, hq, hi, hkcp]

/-- In a run whose steps are all sound the conversation of a linked record is entered for
that record, and data sent on it goes to the peer it was announced for. -/
theorem key2Find_linked {automaticHeart : Bool} {es : List Event}
    (hs : Runs.Steps (advance inetAddr) (fun s e => ∀ n ∈ s, n.Sound e)
      (some (start automaticHeart)) es)
    (hn : Runs.final (advance inetAddr) (some (start automaticHeart)) es = some n)
    (hp : n.conIPInfoMap.key1Find k = some p) (hi : n.heap p = some info)
    (hl : info.state = .link) :
    n.conIPInfoMap.key2Find info.conv = some p ∧
      (n.stablySend now info.conv).map (·.2) = some (some p) ∧ Announced n.recPacketQue info := by
  have h := Wf.run hs hn
  obtain ⟨hkcp, ha⟩ := h.linked p info hi hl
  exact ⟨(h.own k p info hp hi hkcp).2, stablySend_linked h hp hi hl, ha⟩

/-- `inet_addr` of two hosts. -/
def twoHosts (ip : String) : UInt32 :=
  if ip = "10.0.0.1" then 0x0A000001 else if ip = "10.0.0.2" then 0x0A000002 else 0xFFFFFFFF

/-- One host is connected to, the other one connects. -/
def bothWays : List Event :=
  [.connect 0 "10.0.0.1" 8000, .handleCmd,
   .control 1 0x0A000001 8000 0 0 (putsynack 101 1436),
   .control 2 0x0A000001 8000 0 0 (putlink 101 1436),
   .control 3 0x0A000002 9000 0 0 (putsyn 101 0),
   .control 4 0x0A000002 9000 0 0 (putack 102 1430)]

theorem key2Find_linked_bothWays :
    ∃ n info, Runs.final (advance twoHosts) (some (start true)) bothWays = some n ∧
      n.heap 1 = some info ∧ info.addr = ⟨0x0A000002, 9000, 0⟩ ∧
      n.conIPInfoMap.key2Find info.conv = some 1 ∧
      (n.stablySend 5 info.conv).map (·.2) = some (some 1) ∧ Announced n.recPacketQue info := by
  have hrun : ((Runs.final (advance twoHosts) (some (start true)) bothWays).any fun n =>
      n.conIPInfoMap.key1Find "10.0.0.2|9000" = some 1 ∧ (n.heap 1).any fun info =>
        info.addr = ⟨0x0A000002, 9000, 0⟩ ∧ info.state = .link) = true := by decide
  obtain ⟨n, hn, h⟩ := (Option.any_eq_true _ _).mp hrun
  obtain ⟨hp, hi⟩ := of_decide_eq_true h
  obtain ⟨info, hi, hinfo⟩ := (Option.any_eq_true _ _).mp hi
  obtain ⟨ha, hl⟩ := of_decide_eq_true hinfo
  exact ⟨n, info, hn, hi, ha, key2Find_linked (by decide) hn hp hi hl⟩

/-- Two servers that give out the same conversation. -/
def sameConv : List Event :=
  [.connect 0 "10.0.0.1" 8000, .connect 0 "10.0.0.2" 8000, .handleCmd, .handleCmd,
   .control 1 0x0A000001 8000 0 0 (putsynack 151 1436),
   .control 1 0x0A000002 8000 0 0 (putsynack 151 1436),
   .control 2 0x0A000001 8000 0 0 (putlink 151 1436),
   .control 2 0x0A000002 8000 0 0 (putlink 151 1436)]

/-- What is sent on the conversation announced for the second server goes to the first one. -/
theorem key2Find_linked_sameConv :
    ∃ n info other, Runs.final (advance twoHosts) (some (start true)) sameConv = some n ∧
      n.conIPInfoMap.key1Find "10.0.0.2|8000" = some 1 ∧ n.heap 1 = some info ∧
      info.state = .link ∧ info.addr = ⟨0x0A000002, 8000, 0⟩ ∧ Announced n.recPacketQue info ∧
      n.conIPInfoMap.key2Find info.conv ≠ some 1 ∧
      (n.stablySend 3 info.conv).map (·.2) = some (some 0) ∧
      n.heap 0 = some other ∧ other.addr = ⟨0x0A000001, 8000, 0⟩ := by
  have hrun : ((Runs.final (advance twoHosts) (some (start true)) sameConv).any fun n =>
      n.conIPInfoMap.key1Find "10.0.0.2|8000" = some 1 ∧ ((n.heap 1).any fun info =>
        info.state = .link ∧ info.addr = ⟨0x0A000002, 8000, 0⟩ ∧ Announced n.recPacketQue info ∧
        n.conIPInfoMap.key2Find info.conv ≠ some 1 ∧
        (n.stablySend 3 info.conv).map (·.2) = some (some 0)) ∧
      (n.heap 0).any fun other => other.addr = ⟨0x0A000001, 8000, 0⟩) = true := by decide
  obtain ⟨n, hn, h⟩ := (Option.any_eq_true _ _).mp hrun
  obtain ⟨hp, hi, ho⟩ := of_decide_eq_true h
  obtain ⟨info, hi, hinfo⟩ := (Option.any_eq_true _ _).mp hi
  obtain ⟨hl, ha, hann, hq, hs⟩ := of_decide_eq_true hinfo
  obtain ⟨other, ho, hother⟩ := (Option.any_eq_true _ _).mp ho
  exact ⟨n, info, other, hn, hp, hi, hl, ha, hann, hq, hs, ho, of_decide_eq_true hother⟩

end CKKkcp

end KkLicode.Kcp
