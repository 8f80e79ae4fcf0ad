import KkLicode.Kcp.Steps

/-! What a step may change in the table and the records of a node, all other fields
left out: it changes a record under its address, enters the conversation of one,
frees one, or adds one under a key. An invariant of the table is kept by every step
if it is kept by every change. -/

namespace KkLicode.Kcp.CKKkcp

variable (inetAddr : String → UInt32)

/-- The table and the records are the same. -/
structure SameTable (n n' : CKKkcp) : Prop where
  conIPInfoMap : n'.conIPInfoMap = n.conIPInfoMap
  heap : n'.heap = n.heap
  allocated : n'.allocated = n.allocated

/-- The record an ACK is accepted for. -/
def Accepts (info : KcpInfo) (c : Control) : Prop :=
  info.state = .synAck ∧ info.conv = c.conv ∧ info.mtu = c.mtu

inductive Change (n : CKKkcp) : Event → CKKkcp → Prop
  | keep {e n'} (h : SameTable n n') : Change n e n'
  | update {e n' p info} (info' : KcpInfo) (hi : n.heap p = some info) (ha : info'.addr = info.addr)
      (h : SameTable (n.setInfo p info') n') : Change n e n'
  | lost {e n' p info} (hp : n.conIPInfoMap.key1Find "" = some p) (hi : n.heap p = some info)
      (hk : info.kcp.isSome) (h : SameTable (n.freed p info true) n') : Change n e n'
  | syn {e n' info} (hp : n.conIPInfoMap.key1Find info.addr.toString = none)
      (h : SameTable (n.addInfo info.addr.toString info) n') : Change n e n'
  | synAgain {e n' p old info} (hp : n.conIPInfoMap.key1Find info.addr.toString = some p)
      (hi : n.heap p = some old) (hk : old.kcp.isSome)
      (h : SameTable ((n.freed p old false).addInfo info.addr.toString info) n') : Change n e n'
  | enter {n' now ip port nTranId nDestTranId c p info} (info' : KcpInfo)
      (hp : n.conIPInfoMap.key1Find (senderKey nTranId (n.adr ip port)) = some p)
      (hi : n.heap p = some info) (hc : c.msgId = .synAck ∨ c.msgId = .ack ∧ Accepts info c)
      (ha : info'.addr = info.addr) (hconv : info'.conv = c.conv)
      (h : SameTable (n.openKcp (senderKey nTranId (n.adr ip port)) p info') n') :
      Change n (.control now ip port nTranId nDestTranId c) n'
  | connect {n' now ip port} (info : KcpInfo)
      (hp : n.conIPInfoMap.key1Find (hostKey ip port) = none)
      (ha : info.addr = fromString inetAddr ip port 0)
      (h : SameTable (n.addInfo (hostKey ip port) info) n') : Change n (.connect now ip port) n'
  | connectBy {n' now tranIp port nDestTranId} (info : KcpInfo)
      (ha : info.addr = fromString inetAddr tranIp (port : UInt16).toNat nDestTranId)
      (hr : (n.conIPInfoMap.key1Find (hostKey tranIp port.toNat)).isSome)
      (hp : n.conIPInfoMap.key1Find
        (hostKey tranIp port.toNat ++ "|" ++ itoa nDestTranId) = none)
      (h : SameTable (n.addInfo info.addr.toString info) n') :
      Change n (.connectBy now tranIp port nDestTranId) n'
  | connectTranServer {n' now ip port} (info : KcpInfo)
      (hp : n.conIPInfoMap.key1Find (hostKey ip (port : UInt16).toNat) = none)
      (ha : info.addr = fromString inetAddr ip port.toNat 0)
      (h : SameTable (n.addInfo (hostKey ip port.toNat) info) n') :
      Change n (.connectTranServer now ip port) n'
  | pass {n' now} (h : n.connMgrPass now = some n') : Change n (.connMgrPass now) n'

variable {inetAddr} {n n' m : CKKkcp} {now p : ℕ} {c : Control} {nTranId nDestTranId : UInt32}
  {addr : KKAddress} {e : Event}

theorem SameTable.refl (n : CKKkcp) : SameTable n n := ⟨rfl, rfl, rfl⟩

theorem SameTable.trans (h : SameTable n m) (h' : SameTable m n') : SameTable n n' :=
  ⟨h'.conIPInfoMap.trans h.conIPInfoMap, h'.heap.trans h.heap, h'.allocated.trans h.allocated⟩

/-- Records are freed and added alike in nodes with the same table. -/
theorem SameTable.freed_addInfo (h : SameTable n m) (p : ℕ) (old info : KcpInfo) (k : String) :
    SameTable ((n.freed p old false).addInfo k info) ((m.freed p old false).addInfo k info) where
  conIPInfoMap := by simp [addInfo, h.conIPInfoMap, h.allocated]
  heap := by simp [addInfo, setInfo, h.heap, h.allocated]
  allocated := by simp [addInfo, h.allocated]

theorem SameTable.addInfo (h : SameTable n m) (info : KcpInfo) (k : String) :
    SameTable (n.addInfo k info) (m.addInfo k info) where
  conIPInfoMap := by simp [CKKkcp.addInfo, h.conIPInfoMap, h.allocated]
  heap := by simp [CKKkcp.addInfo, setInfo, h.heap, h.allocated]
  allocated := by simp [CKKkcp.addInfo, h.allocated]

theorem onDisConnect_change (h : n.onDisConnect addr = some n') : Change inetAddr n e n' := by
  obtain rfl | ⟨p, info, -, hi, rfl⟩ := onDisConnect_cases h
  · exact .keep (.refl n')
  · exact .update { info with state := .autoDisConnect } hi rfl (.refl _)

theorem onSyn_change (h : n.onSyn now c nTranId nDestTranId addr = some n') :
    Change inetAddr n e n' := by
  obtain ⟨m, info, hm, hinfo, rfl⟩ := onSyn_cases h
  have hstart : SameTable n (n.synStart c nTranId addr) := ⟨rfl, rfl, rfl⟩
  have hkey : info.addr = synAddr nTranId addr := by rw [hinfo, synInfo_addr]
  rw [← hkey] at hm
  rcases freeAt_cases hm with ⟨hp, rfl⟩ | ⟨p, old, hp, hi, hk, rfl⟩
  · exact .syn hp ((hstart.addInfo info _).trans ⟨rfl, rfl, rfl⟩)
  · exact .synAgain hp hi hk ((hstart.freed_addInfo p old info _).trans ⟨rfl, rfl, rfl⟩)

theorem onLink_change (h : n.onLink now c nTranId addr = some n') : Change inetAddr n e n' := by
  obtain rfl | ⟨p, info, -, hi, -, rfl⟩ := onLink_cases h
  · exact .keep ⟨rfl, rfl, rfl⟩
  · exact .update { info with state := .link, sendtick := now, handShake := 0 } hi rfl
      ⟨rfl, rfl, rfl⟩

theorem onKcpHeart_change (h : n.onKcpHeart now c addr = some n') : Change inetAddr n e n' := by
  obtain ⟨-, rfl⟩ | ⟨p, info, -, hi, ⟨-, rfl⟩ | ⟨-, rfl⟩⟩ := onKcpHeart_cases h
  · exact .keep ⟨rfl, rfl, rfl⟩
  · exact .update { info with sendtick := now, rectick := now } hi rfl ⟨rfl, rfl, rfl⟩
  · exact .update { info with sendtick := now } hi rfl ⟨rfl, rfl, rfl⟩

theorem onKckLost_change (h : n.onKckLost addr = some n') : Change inetAddr n e n' := by
  obtain rfl | ⟨p, info, hp, hi, hk, rfl⟩ := onKckLost_cases h
  · exact .keep ⟨rfl, rfl, rfl⟩
  · refine .lost hp hi hk ⟨rfl, ?_, rfl⟩
    simp [putKKPacket, setInfo]

theorem onConHandle_change {ip : UInt32} {port : UInt16}
    (h : n.onConHandle now c nTranId nDestTranId (n.adr ip port) = some n') :
    Change inetAddr n (.control now ip port nTranId nDestTranId c) n' := by
  unfold onConHandle at h
  cases hc : c.msgId <;> simp only [hc] at h
  case disConnect => exact onDisConnect_change h
  case syn => exact onSyn_change h
  case synAck =>
    obtain ⟨p, info, hp, hi, rfl⟩ := onSynAck_cases h
    exact .enter { info with state := .ack, sendtick := now, conv := c.conv, handShake := 0, mtu := c.mtu }
      hp hi (.inl hc) rfl rfl ⟨rfl, rfl, rfl⟩
  case ack =>
    obtain ⟨p, info, hp, hi, ⟨hm, rfl⟩ | rfl⟩ := onAck_cases h
    · refine .enter { info with state := .link, sendtick := now } hp hi
        (.inr ⟨hc, hm⟩) rfl hm.2.1 ⟨rfl, rfl, rfl⟩
    · exact .update { info with sendtick := now } hi rfl ⟨rfl, rfl, rfl⟩
  case link => exact onLink_change h
  case kcpHeart => exact onKcpHeart_change h
  case unLink => exact Option.some.inj h ▸ .keep ⟨rfl, rfl, rfl⟩
  case kckLost => exact onKckLost_change h
  all_goals exact Option.some.inj h ▸ .keep (.refl n)

theorem onTranId_change {tranId : UInt32} (h : n.onTranId now tranId addr = some n') :
    Change inetAddr n e n' := by
  obtain rfl | ⟨p, info, -, hi, rfl⟩ := onTranId_cases h
  · exact .keep (.refl n')
  · exact .update { info with state := .tranIdOk, sendtick := now, nTranId := tranId }
      hi rfl ⟨rfl, rfl, rfl⟩

theorem onKcp_change (h : n.onKcp now nTranId nDestTranId addr = some n') :
    Change inetAddr n e n' := by
  obtain ⟨-, rfl⟩ | ⟨p, info, -, hi, rfl⟩ := onKcp_cases h
  · exact .keep ⟨rfl, rfl, rfl⟩
  · exact .update { info with sendtick := now, rectick := now } hi rfl ⟨rfl, rfl, rfl⟩

theorem connect_change {ip : String} {port : ℤ} (h : n.connect inetAddr now ip port = some n') :
    Change inetAddr n (.connect now ip port) n' := by
  obtain rfl | ⟨hp, rfl⟩ := connect_cases h
  · exact .keep (.refl n')
  · exact .connect { conv := n.curConv + 1, addr := fromString inetAddr ip port 0, state := .syn
                     sponsor := true, sendtick := now, rectick := now } hp rfl ⟨rfl, rfl, rfl⟩

theorem connectBy_change {tranIp : String} {port : UInt16}
    (h : n.connectBy inetAddr now tranIp port nDestTranId = some n') :
    Change inetAddr n (.connectBy now tranIp port nDestTranId) n' := by
  unfold connectBy at h
  split at h
  · exact Option.some.inj h ▸ .keep (.refl n)
  · next hr =>
    obtain ⟨relayInfo, hi, h⟩ := Option.bind_eq_some_iff.mp h
    split at h
    · exact Option.some.inj h ▸ .keep (.refl n)
    · next hp =>
      cases h
      exact .connectBy { conv := n.curConv + 1
                         addr := fromString inetAddr tranIp port.toNat nDestTranId, state := .syn
                         sponsor := true, bTranspond := true, nTranId := relayInfo.nTranId
                         nDestTranId := nDestTranId, sendtick := now, rectick := now } rfl (by simp [hr]) hp ⟨rfl, rfl, rfl⟩

theorem connectTranServer_change {ip : String} {port : UInt16}
    (h : n.connectTranServer inetAddr now ip port = some n') :
    Change inetAddr n (.connectTranServer now ip port) n' := by
  unfold connectTranServer at h
  split at h
  · cases h
  · next hp =>
    cases h
    exact .connectTranServer { addr := fromString inetAddr ip port.toNat 0, state := .getTranId
                               sponsor := true, bTranspond := true, sendtick := now
                               rectick := now } hp rfl ⟨rfl, rfl, rfl⟩

theorem disConnect_change {id : UInt32} (h : n.disConnect id = some n') :
    Change inetAddr n e n' := by
  unfold disConnect at h
  split at h
  · exact Option.some.inj h ▸ .keep (.refl n)
  · obtain ⟨info, hi, h⟩ := Option.bind_eq_some_iff.mp h
    cases h
    exact .keep ⟨rfl, rfl, rfl⟩

theorem disConnectFrom_change {ip : String} {port : ℤ}
    (h : n.disConnectFrom now ip port nDestTranId = some n') : Change inetAddr n e n' := by
  unfold disConnectFrom at h
  dsimp only at h
  split at h
  · exact Option.some.inj h ▸ .keep (.refl n)
  · obtain ⟨info, hi, h⟩ := Option.bind_eq_some_iff.mp h
    cases h
    exact .update { info with state := .autoDisConnect, sendtick := now } hi rfl
      ⟨rfl, rfl, rfl⟩

theorem handleCmd_sameTable (n : CKKkcp) : SameTable n n.handleCmd := by
  unfold handleCmd
  split
  · exact .refl n
  · dsimp only
    split <;> exact ⟨rfl, rfl, rfl⟩

theorem stablySend_change {id : UInt32} {r : CKKkcp × Option ℕ}
    (h : n.stablySend now id = some r) : Change inetAddr n e r.1 := by
  unfold stablySend at h
  dsimp only at h
  set m : CKKkcp := if id = 0 then { n with conId := n.conIPInfoMap.key2begin.getD n.conId } else n
    with hm
  have hsame : SameTable n m := by
    rw [hm]
    split_ifs
    · exact ⟨rfl, rfl, rfl⟩
    · exact .refl n
  split at h
  · cases h
    exact .keep hsame
  · obtain ⟨info, hi, h⟩ := Option.bind_eq_some_iff.mp h
    obtain ⟨kcp, hk, h⟩ := Option.bind_eq_some_iff.mp h
    cases h
    rw [hsame.heap] at hi
    split_ifs
    · exact .update { info with sendtick := now } hi rfl
        ⟨hsame.conIPInfoMap, by simp [setInfo, hsame.heap], hsame.allocated⟩
    · exact .update { info with rectick := now } hi rfl
        ⟨hsame.conIPInfoMap, by simp [setInfo, hsame.heap], hsame.allocated⟩

theorem step_change (h : n.step inetAddr e = some n') : Change inetAddr n e n' := by
  cases e with
  | connect now ip port => exact connect_change h
  | connectBy now tranIp port nDestTranId => exact connectBy_change h
  | connectTranServer now ip port => exact connectTranServer_change h
  | disConnect id => exact disConnect_change h
  | disConnectFrom now ip port nDestTranId => exact disConnectFrom_change h
  | stablySend now id =>
    obtain ⟨r, hr, rfl⟩ := Option.map_eq_some_iff.mp h
    exact stablySend_change hr
  | handleCmd => exact Option.some.inj h ▸ .keep (handleCmd_sameTable n)
  | connMgrPass now => exact .pass h
  | control now ip port nTranId nDestTranId c => exact onConHandle_change h
  | tranId now ip port tranId => exact onTranId_change h
  | kcp now ip port nTranId nDestTranId => exact onKcp_change h

end KkLicode.Kcp.CKKkcp
