import KkLicode.Kcp.KKKcp

/-! What the steps of a node do: one lemma for each handler. A handler changes one
record, opens a control block for it, deletes it or adds a new one; the datagrams
and packets it puts out are written at the end. -/

namespace KkLicode.Kcp

/-- The record with other timers. -/
def KcpInfo.timed (info : KcpInfo) (sendtick rectick : ℕ) (handShake : UInt8) : KcpInfo :=
  { info with sendtick := sendtick, rectick := rectick, handShake := handShake }

/-- What the connection manager may send about a record. -/
def KcpInfo.MaySend (info : KcpInfo) (automaticHeart : Bool) (body : Body) : Prop :=
  body = .getTranId ∨ body = .tranHeart ∨
    (automaticHeart ∧ info.state = .link ∧ body = .control (putkcpheart info.conv)) ∨
    (info.sponsor ∧ info.state = .syn ∧ body = .control (putsyn info.conv info.nDestTranId)) ∨
    (info.sponsor ∧ info.state = .ack ∧ body = .control (putack info.conv info.mtu))

namespace CKKkcp

variable {n n' : CKKkcp} {now p : ℕ} {info : KcpInfo} {c : Control} {nTranId nDestTranId : UInt32}
  {addr : KKAddress}

/-! ### Records -/

@[simp] theorem setInfo_heap_self (n : CKKkcp) (p : ℕ) (info : KcpInfo) :
    (n.setInfo p info).heap p = some info := Function.update_self ..

theorem setInfo_heap_ne (n : CKKkcp) {p q : ℕ} (h : q ≠ p) (info : KcpInfo) :
    (n.setInfo p info).heap q = n.heap q := Function.update_of_ne h ..

@[simp] theorem setInfo_conIPInfoMap (n : CKKkcp) (p : ℕ) (info : KcpInfo) :
    (n.setInfo p info).conIPInfoMap = n.conIPInfoMap := rfl

theorem setInfo_self (h : n.heap p = some info) : n.setInfo p info = n := by
  rw [setInfo, ← h, Function.update_eq_self]

/-- Open a control block for a record and enter its conversation into the table. -/
def openKcp (n : CKKkcp) (ipport : String) (p : ℕ) (info : KcpInfo) : CKKkcp :=
  { n.setInfo p { info with kcp := some { id := n.kcps, conv := info.conv } } with
    kcps := n.kcps + 1
    conIPInfoMap := n.conIPInfoMap.key2insert ipport info.conv p }

theorem openKcp_heap_self (n : CKKkcp) (ipport : String) (p : ℕ) (info : KcpInfo) :
    (n.openKcp ipport p info).heap p =
      some { info with kcp := some { id := n.kcps, conv := info.conv } } := Function.update_self ..

theorem openKcp_heap_ne (n : CKKkcp) (ipport : String) {p q : ℕ} (info : KcpInfo) (h : q ≠ p) :
    (n.openKcp ipport p info).heap q = n.heap q := Function.update_of_ne h ..

theorem onSynAck_eq (hk : n.conIPInfoMap.key1Find (senderKey nTranId addr) = some p)
    (hi : n.heap p = some info) : n.onSynAck now c nTranId addr =
      some ((n.openKcp (senderKey nTranId addr) p { info with
        state := .ack, sendtick := now, conv := c.conv, handShake := 0, mtu := c.mtu }).sendControl
          (putack c.conv c.mtu) info.nTranId info.nDestTranId addr) := by
  simp [onSynAck, createKcp, openKcp, hk, hi, setInfo]

theorem onSynAck_cases (h : n.onSynAck now c nTranId addr = some n') :
    ∃ p info, n.conIPInfoMap.key1Find (senderKey nTranId addr) = some p ∧ n.heap p = some info ∧
      n' = (n.openKcp (senderKey nTranId addr) p { info with
        state := .ack, sendtick := now, conv := c.conv, handShake := 0, mtu := c.mtu }).sendControl
          (putack c.conv c.mtu) info.nTranId info.nDestTranId addr := by
  obtain ⟨p, hp, hn⟩ := Option.bind_eq_some_iff.mp h
  obtain ⟨info, hi, -⟩ := Option.bind_eq_some_iff.mp hn
  exact ⟨p, info, hp, hi, Option.some.inj (h.symm.trans (onSynAck_eq hp hi))⟩

theorem onAck_eq_match (hk : n.conIPInfoMap.key1Find (senderKey nTranId addr) = some p)
    (hi : n.heap p = some info)
    (hm : info.state = .synAck ∧ info.conv = c.conv ∧ info.mtu = c.mtu) :
    n.onAck now c nTranId nDestTranId addr =
      some (((n.openKcp (senderKey nTranId addr) p { info with
        state := .link, sendtick := now }).putKKPacket
          { msgId := .linkIncoming, conId := c.conv, addr := info.addr }).sendControl
            (putlink c.conv c.mtu) nDestTranId nTranId addr) := by
  simp [onAck, acceptAck, createKcp, openKcp, hk, hi, hm, setInfo]

theorem onAck_eq_other (hk : n.conIPInfoMap.key1Find (senderKey nTranId addr) = some p)
    (hi : n.heap p = some info)
    (hm : ¬(info.state = .synAck ∧ info.conv = c.conv ∧ info.mtu = c.mtu)) :
    n.onAck now c nTranId nDestTranId addr =
      some ((n.setInfo p { info with sendtick := now }).sendControl (putlink c.conv c.mtu)
        nDestTranId nTranId addr) := by
  simp only [onAck, hk, hi, Option.bind_eq_bind, Option.bind_some, if_neg hm]
  rfl

theorem onAck_cases (h : n.onAck now c nTranId nDestTranId addr = some n') :
    ∃ p info, n.conIPInfoMap.key1Find (senderKey nTranId addr) = some p ∧ n.heap p = some info ∧
      (((info.state = .synAck ∧ info.conv = c.conv ∧ info.mtu = c.mtu) ∧
        n' = ((n.openKcp (senderKey nTranId addr) p { info with
          state := .link, sendtick := now }).putKKPacket
            { msgId := .linkIncoming, conId := c.conv, addr := info.addr }).sendControl
              (putlink c.conv c.mtu) nDestTranId nTranId addr) ∨
        n' = (n.setInfo p { info with sendtick := now }).sendControl (putlink c.conv c.mtu)
          nDestTranId nTranId addr) := by
  obtain ⟨p, hp, hn⟩ := Option.bind_eq_some_iff.mp h
  obtain ⟨info, hi, -⟩ := Option.bind_eq_some_iff.mp hn
  refine ⟨p, info, hp, hi, ?_⟩
  by_cases hm : info.state = .synAck ∧ info.conv = c.conv ∧ info.mtu = c.mtu
  · exact .inl ⟨hm, Option.some.inj (h.symm.trans (onAck_eq_match hp hi hm))⟩
  · exact .inr (Option.some.inj (h.symm.trans (onAck_eq_other hp hi hm)))

theorem onLink_cases (h : n.onLink now c nTranId addr = some n') :
    n' = n.sendKckLost c.conv addr ∨
    ∃ p info, n.conIPInfoMap.key1Find (senderKey nTranId addr) = some p ∧ n.heap p = some info ∧
      (info.conv = c.conv ∧ info.mtu = c.mtu) ∧
      n' = (n.setInfo p { info with state := .link, sendtick := now, handShake := 0 }).putKKPacket
        { msgId := .linkAccepted, conId := c.conv, addr := info.addr } := by
  unfold onLink at h
  split at h
  · exact .inl (Option.some.inj h).symm
  · obtain ⟨info, hi, h⟩ := Option.bind_eq_some_iff.mp h
    split_ifs at h with hm
    · exact .inr ⟨_, info, ‹_›, hi, hm, (Option.some.inj h).symm⟩
    · exact .inl (Option.some.inj h).symm

theorem onDisConnect_cases (h : n.onDisConnect addr = some n') :
    n' = n ∨ ∃ p info, n.conIPInfoMap.key1Find addr.toString = some p ∧ n.heap p = some info ∧
      n' = n.setInfo p { info with state := .autoDisConnect } := by
  unfold onDisConnect at h
  split at h
  · exact .inl (Option.some.inj h).symm
  · next p hp =>
    obtain ⟨info, hi, h⟩ := Option.bind_eq_some_iff.mp h
    exact .inr ⟨p, info, hp, hi, (Option.some.inj h).symm⟩

theorem onKcpHeart_cases (h : n.onKcpHeart now c addr = some n') :
    (n.conIPInfoMap.key2Find c.conv = none ∧ n' = n.sendKckLost c.conv addr) ∨
    ∃ p info, n.conIPInfoMap.key2Find c.conv = some p ∧ n.heap p = some info ∧
      (info.sponsor ∧ n' = (n.setInfo p { info with sendtick := now, rectick := now }).putKKPacket
          { msgId := .kcpHeart, conId := c.conv, addr := info.addr } ∨
        ¬info.sponsor ∧ n' = ((n.setInfo p { info with sendtick := now }).sendControl
          (putkcpheart info.conv) info.nTranId info.nDestTranId info.addr).putKKPacket
            { msgId := .kcpHeart, conId := c.conv, addr := info.addr }) := by
  unfold onKcpHeart at h
  split at h
  · next hp => exact .inl ⟨hp, (Option.some.inj h).symm⟩
  · next p hp =>
    obtain ⟨info, hi, h⟩ := Option.bind_eq_some_iff.mp h
    cases h
    refine .inr ⟨p, info, hp, hi, ?_⟩
    split_ifs with hsponsor
    · exact .inl ⟨hsponsor, rfl⟩
    · exact .inr ⟨hsponsor, rfl⟩

theorem onTranId_cases {tranId : UInt32} (h : n.onTranId now tranId addr = some n') :
    n' = n ∨ ∃ p info, n.conIPInfoMap.key1Find addr.toString = some p ∧ n.heap p = some info ∧
      n' = (n.setInfo p { info with state := .tranIdOk, sendtick := now, nTranId := tranId }).putKKPacket
        { msgId := .tranIdOk, conId := tranId, addr := info.addr } := by
  unfold onTranId at h
  split at h
  · exact .inl (Option.some.inj h).symm
  · next p hp =>
    obtain ⟨info, hi, h⟩ := Option.bind_eq_some_iff.mp h
    exact .inr ⟨p, info, hp, hi, (Option.some.inj h).symm⟩

theorem onKcp_cases (h : n.onKcp now nTranId nDestTranId addr = some n') :
    (n.conIPInfoMap.key1Find (senderKey nTranId addr) = none ∧
      n' = n.sendControl putunlink nTranId nDestTranId addr) ∨
    ∃ p info, n.conIPInfoMap.key1Find (senderKey nTranId addr) = some p ∧ n.heap p = some info ∧
      n' = n.setInfo p { info with sendtick := now, rectick := now } := by
  unfold onKcp at h
  split at h
  · next hp => exact .inl ⟨hp, (Option.some.inj h).symm⟩
  · next p hp =>
    obtain ⟨info, hi, h⟩ := Option.bind_eq_some_iff.mp h
    exact .inr ⟨p, info, hp, hi, (Option.some.inj h).symm⟩

/-! ### Records that leave and records that come -/

/-- The node without a record, and with a packet about it if one is asked for. -/
def freed (n : CKKkcp) (p : ℕ) (info : KcpInfo) (needMsg : Bool) : CKKkcp :=
  { if needMsg then n.genSysKKPacket info.state info.addr info.conv else n with
    conIPInfoMap := (n.conIPInfoMap.key1Del info.addr.toString).1
    heap := Function.update n.heap p none }

section freed

variable (n p info) (needMsg : Bool)

@[simp] theorem freed_conIPInfoMap : (n.freed p info needMsg).conIPInfoMap =
    (n.conIPInfoMap.key1Del info.addr.toString).1 := rfl

@[simp] theorem freed_heap :
    (n.freed p info needMsg).heap = Function.update n.heap p none := rfl

@[simp] theorem freed_allocated : (n.freed p info needMsg).allocated = n.allocated := by
  cases needMsg <;> rfl

@[simp] theorem freed_sent : (n.freed p info needMsg).sent = n.sent := by
  cases needMsg <;> rfl

theorem subset_freed : n.recPacketQue ⊆ (n.freed p info needMsg).recPacketQue := by
  cases needMsg <;> simp [freed, genSysKKPacket, putKKPacket]

end freed

theorem heap_of_freed {needMsg : Bool} {q : ℕ} {info' : KcpInfo}
    (h : (n.freed p info needMsg).heap q = some info') : q ≠ p ∧ n.heap q = some info' := by
  rw [freed_heap] at h
  by_cases hq : q = p
  · simp [hq] at h
  · exact ⟨hq, by rwa [Function.update_of_ne hq] at h⟩

theorem freeKcpInfo_eq (hi : n.heap p = some info) (needMsg : Bool) :
    n.freeKcpInfo p needMsg = info.kcp.map fun _ => (n.freed p info needMsg,
      (n.conIPInfoMap.key1Del info.addr.toString).2) := by
  cases hk : info.kcp <;> cases needMsg <;>
    simp [freeKcpInfo, freed, hi, hk, genSysKKPacket, putKKPacket]

/-- A record is freed only if it has a control block. -/
theorem freeKcpInfo_cases (hi : n.heap p = some info) {needMsg : Bool}
    {r : CKKkcp × Option String} (h : n.freeKcpInfo p needMsg = some r) :
    info.kcp.isSome ∧
      r = (n.freed p info needMsg, (n.conIPInfoMap.key1Del info.addr.toString).2) := by
  rw [freeKcpInfo_eq hi needMsg] at h
  obtain ⟨kcp, hk, rfl⟩ := Option.map_eq_some_iff.mp h
  exact ⟨by rw [hk]; rfl, rfl⟩

theorem onKckLost_cases (h : n.onKckLost addr = some n') :
    n' = n.putKKPacket { msgId := .kckLost, addr := addr } ∨
    ∃ p info, n.conIPInfoMap.key1Find "" = some p ∧ n.heap p = some info ∧ info.kcp.isSome ∧
      n' = ((n.setInfo p { info with state := .kckLost }).freed p
        { info with state := .kckLost } true).putKKPacket
          { msgId := .kckLost, addr := addr, conId := info.conv } := by
  unfold onKckLost at h
  split at h
  · exact .inl (Option.some.inj h).symm
  · next p hp =>
    obtain ⟨info, hi, h⟩ := Option.bind_eq_some_iff.mp h
    obtain ⟨r, hr, h⟩ := Option.bind_eq_some_iff.mp h
    obtain ⟨hk, rfl⟩ := freeKcpInfo_cases (setInfo_heap_self ..) hr
    exact .inr ⟨p, info, hp, hi, hk, (Option.some.inj h).symm⟩

theorem freed_timed (n : CKKkcp) (p : ℕ) (info : KcpInfo) (a b : ℕ) (k : UInt8) (needMsg : Bool) :
    (n.setInfo p (info.timed a b k)).freed p (info.timed a b k) needMsg = n.freed p info needMsg := by
  cases needMsg <;> simp only [freed, setInfo, Function.update_idem] <;> rfl

theorem freeAt_cases {ipport : String} (h : n.freeAt ipport = some n') :
    (n.conIPInfoMap.key1Find ipport = none ∧ n' = n) ∨
    ∃ p info, n.conIPInfoMap.key1Find ipport = some p ∧ n.heap p = some info ∧ info.kcp.isSome ∧
      n' = n.freed p info false := by
  unfold freeAt at h
  split at h
  · next hk => exact .inl ⟨hk, (Option.some.inj h).symm⟩
  · next p hk =>
    obtain ⟨r, hr, rfl⟩ := Option.map_eq_some_iff.mp h
    obtain ⟨info, hi, -⟩ := Option.bind_eq_some_iff.mp hr
    obtain ⟨hkcp, rfl⟩ := freeKcpInfo_cases hi hr
    exact .inr ⟨p, info, hk, hi, hkcp, rfl⟩

/-- The node with a new record under a key. -/
def addInfo (n : CKKkcp) (ipport : String) (info : KcpInfo) : CKKkcp :=
  { n.setInfo n.allocated info with
    allocated := n.allocated + 1
    conIPInfoMap := n.conIPInfoMap.key1Insert ipport n.allocated }

theorem addInfo_heap_self (n : CKKkcp) (ipport : String) (info : KcpInfo) :
    (n.addInfo ipport info).heap n.allocated = some info := Function.update_self ..

theorem addInfo_heap_ne (n : CKKkcp) (ipport : String) (info : KcpInfo) {q : ℕ}
    (h : q ≠ n.allocated) : (n.addInfo ipport info).heap q = n.heap q := Function.update_of_ne h ..

theorem connect_cases {inetAddr : String → UInt32} {ip : String} {port : ℤ}
    (h : n.connect inetAddr now ip port = some n') :
    n' = n ∨ n.conIPInfoMap.key1Find (hostKey ip port) = none ∧
      n' = ({ n with
        curConv := n.curConv + 1
        sendUdpQue := n.sendUdpQue ++ [{ cmd := .connect, conv := n.curConv + 1, nTranId := 0
                                         nDestTranId := 0, addr := fromString inetAddr ip port 0 }]
        } : CKKkcp).addInfo (hostKey ip port)
          { conv := n.curConv + 1, addr := fromString inetAddr ip port 0, state := .syn
            sponsor := true, sendtick := now, rectick := now } := by
  unfold connect at h
  split at h
  · obtain ⟨info, hi, h⟩ := Option.bind_eq_some_iff.mp h
    split_ifs at h
    exact .inl (Option.some.inj h).symm
  · next hp => exact .inr ⟨hp, (Option.some.inj h).symm⟩

section synInfo

variable (now : ℕ) (conv : UInt32) (mtu : UInt16)

@[simp] theorem synInfo_conv : (synInfo now conv mtu nTranId nDestTranId addr).conv = conv := by
  unfold synInfo
  split_ifs <;> rfl

@[simp] theorem synInfo_mtu : (synInfo now conv mtu nTranId nDestTranId addr).mtu = mtu := by
  unfold synInfo
  split_ifs <;> rfl

@[simp] theorem synInfo_addr : (synInfo now conv mtu nTranId nDestTranId addr).addr = addr := by
  unfold synInfo
  split_ifs <;> rfl

@[simp] theorem synInfo_kcp : (synInfo now conv mtu nTranId nDestTranId addr).kcp = none := by
  unfold synInfo
  split_ifs <;> rfl

@[simp] theorem synInfo_state : (synInfo now conv mtu nTranId nDestTranId addr).state = .synAck := by
  unfold synInfo
  split_ifs <;> rfl

end synInfo

/-- The node before the old record of the sender of a SYN is deleted. -/
def synStart (n : CKKkcp) (c : Control) (nTranId : UInt32) (addr : KKAddress) : CKKkcp :=
  { n with curConv := n.synConv c, adrTranId := (synAddr nTranId addr).destTranId }

theorem onSyn_cases (h : n.onSyn now c nTranId nDestTranId addr = some n') :
    ∃ m info, (n.synStart c nTranId addr).freeAt (synAddr nTranId addr).toString = some m ∧
      info = synInfo now (n.synConv c) (synMtu c) nTranId nDestTranId (synAddr nTranId addr) ∧
      n' = (m.addInfo info.addr.toString info).sendControl (putsynack info.conv info.mtu)
        info.nTranId info.nDestTranId info.addr := by
  have hs : n.onSyn now c nTranId nDestTranId addr =
      ((n.synStart c nTranId addr).freeAt (synAddr nTranId addr).toString).bind _ := rfl
  rw [hs] at h
  obtain ⟨m, hm, h⟩ := Option.bind_eq_some_iff.mp h
  have hc : m.curConv = n.synConv c := by
    rcases freeAt_cases hm with ⟨-, rfl⟩ | ⟨p, info, -, -, -, rfl⟩ <;> rfl
  refine ⟨m, _, hm, rfl, (Option.some.inj h).symm.trans ?_⟩
  simp [hc, addInfo, setInfo]

/-! ### The connection manager -/

/-- A record keeps all but its timers and something is sent about it, or it has a control block
and is freed. -/
inductive Managed (n : CKKkcp) (p : ℕ) (info : KcpInfo) : CKKkcp × Option (Option String) → Prop
  | keep (a b : ℕ) (k : UInt8) (ds : List Datagram)
      (hd : ∀ d ∈ ds, d.dest = info.addr ∧ info.MaySend n.automaticHeart d.body ∧
        (info.nDestTranId = 0 → d.relay = none)) :
      Managed n p info ({ n.setInfo p (info.timed a b k) with sent := n.sent ++ ds }, none)
  | free (hk : info.kcp.isSome) : Managed n p info
      (n.freed p info true, some (n.conIPInfoMap.key1Del info.addr.toString).2)

theorem manage_cases {r : CKKkcp × Option (Option String)} (h : n.manage now p = some r) :
    ∃ info, n.heap p = some info ∧ Managed n p info r := by
  unfold manage at h
  rcases Option.bind_eq_some_iff.mp h with ⟨info, hi, hr⟩
  clear h
  refine ⟨info, hi, ?_⟩
  have keep (a b : ℕ) (k : UInt8) :
      Managed n p info (n.setInfo p (info.timed a b k), none) := by
    have h : Managed n p info (_, none) := .keep a b k [] (by simp)
    rwa [List.append_nil] at h
  have same : Managed n p info (n, none) := by
    have := keep info.sendtick info.rectick info.handShake
    rwa [KcpInfo.timed, setInfo_self hi] at this
  have post (a b : ℕ) (k : UInt8) (d : Datagram) (hd : d.dest = info.addr)
      (hb : info.MaySend n.automaticHeart d.body)
      (hr : info.nDestTranId = 0 → d.relay = none) :
      Managed n p info ((n.setInfo p (info.timed a b k)).kksend d, none) :=
    .keep a b k [d] (by simpa using ⟨hd, hb, hr⟩)
  have sign (a b : ℕ) (k : UInt8) (c : Control) (hb : info.MaySend n.automaticHeart (.control c)) :
      Managed n p info ((n.setInfo p (info.timed a b k)).sendControl c info.nTranId
        info.nDestTranId info.addr, none) := by
    refine post a b k _ rfl hb fun h0 => ?_
    simp [h0]
  have free (h : (n.freeKcpInfo p true).map (fun r => (r.1, some r.2)) = some r) :
      Managed n p info r := by
    obtain ⟨r', hr', rfl⟩ := Option.map_eq_some_iff.mp h
    obtain ⟨hk, rfl⟩ := freeKcpInfo_cases hi hr'
    exact .free hk
  have htimed : (n.setInfo p { info with
      handShake := 0, sendtick := now, rectick := now }).freeKcpInfo p true =
        n.freeKcpInfo p true := by
    rw [freeKcpInfo_eq (setInfo_heap_self ..), freeKcpInfo_eq hi]
    exact congrArg (fun m => info.kcp.map fun _ => (m, _)) (freed_timed n p info now now 0 true)
  dsimp only at hr
  simp only [htimed] at hr
  split_ifs at hr
  · exact free hr
  · cases hr
    exact post now now _ _ rfl (.inl rfl) fun _ => rfl
  · cases hr
    exact keep info.sendtick info.rectick _
  · exact free hr
  · exact Option.some.inj hr ▸ same
  · exact free hr
  · rename_i hsponsor _ _ _ hsyn
    cases hr
    exact sign now now _ _ (.inr (.inr (.inr (.inl ⟨hsponsor, hsyn, rfl⟩))))
  · rename_i hsponsor hopen _ _ hsyn
    have hack : info.state = .ack := hopen.2.resolve_left hsyn
    cases hr
    exact sign now now _ _ (.inr (.inr (.inr (.inr ⟨hsponsor, hack, rfl⟩))))
  · exact free hr
  · exact Option.some.inj hr ▸ same
  · rename_i hheart
    cases hr
    exact sign now info.rectick info.handShake _ (.inr (.inr (.inl ⟨hheart.1, hheart.2.1, rfl⟩)))
  · exact free hr
  · exact Option.some.inj hr ▸ same
  · cases hr
    exact post now info.rectick info.handShake { dest := _, body := _ } rfl (.inr (.inl rfl))
      fun _ => rfl
  · cases hr
    exact post info.sendtick now info.handShake { dest := _, body := _ } rfl (.inr (.inl rfl))
      fun _ => rfl
  · exact Option.some.inj hr ▸ same

/-- What every record's turn keeps, a pass keeps. -/
theorem passFrom_invariant {P : CKKkcp → Prop}
    (hstep : ∀ n k p r, P n → n.conIPInfoMap.key1Find k = some p → n.manage now p = some r → P r.1)
    {fuel : ℕ} {it : Option String} (hP : P n) (h : passFrom fuel n now it = some n') : P n' := by
  induction fuel generalizing n it with
  | zero => exact Option.some.inj h ▸ hP
  | succ fuel ih =>
    cases it with
    | none => exact Option.some.inj h ▸ hP
    | some key =>
      obtain ⟨p, hp, h⟩ := Option.bind_eq_some_iff.mp h
      obtain ⟨r, hr, h⟩ := Option.bind_eq_some_iff.mp h
      exact ih (hstep n key p r hP hp hr) h

end CKKkcp

end KkLicode.Kcp
