import KkLicode.Kcp.OnBufHandle
import KkLicode.Kcp.Steps

/-! What a node sends back to a relayed datagram. The relay header of a reply has to
lead to the sender, so it has the two ids of the datagram the other way round. Each
handler takes the ids from another place; which of them are the right ones depends
on the message and on the record it meets. -/

namespace KkLicode.Kcp

/-- The ids a node puts into the header of what it sends about the record are `d` and `s`. -/
def KcpInfo.LeadsTo (info : KcpInfo) (s d : UInt32) : Prop :=
  info.nTranId = d ∧ info.nDestTranId = s ∧ s > 0

instance KcpInfo.LeadsTo.decidable (info : KcpInfo) (s d : UInt32) : Decidable (info.LeadsTo s d) :=
  inferInstanceAs (Decidable (_ ∧ _ ∧ _))

namespace CKKkcp

/-- What is sent in a step from `n` to `n'` goes from the relay id `d` to the relay id `s`. -/
def RepliesTo (n n' : CKKkcp) (s d : UInt32) : Prop :=
  ∀ r ∈ n'.sent.drop n.sent.length, r.header = butTranspondHeadr d s

/-- The messages that are answered to their sender, or not at all. A LINK that does not fit its
record, and a heart without a record, is answered without a header, and KCP data without a record
with the header it came with. -/
def Answered (n : CKKkcp) (adr : KKAddress) : Message → Prop
  | .control s d c =>
    match c.msgId with
    | .syn | .ack => s > 0
    | .synAck => ∀ p ∈ n.conIPInfoMap.key1Find (senderKey s adr), ∀ info ∈ n.heap p, info.LeadsTo s d
    | .link => ∃ p ∈ n.conIPInfoMap.key1Find (senderKey s adr), ∃ info ∈ n.heap p,
        info.conv = c.conv ∧ info.mtu = c.mtu
    | .kcpHeart => ∃ p ∈ n.conIPInfoMap.key2Find c.conv, ∃ info ∈ n.heap p,
        info.sponsor ∨ info.LeadsTo s d
    | _ => True
  | .kcp s d _ => (n.conIPInfoMap.key1Find (senderKey s adr)).isSome ∨ (s = d ∧ d > 0)
  | _ => True

variable {n n' m : CKKkcp} {now p : ℕ} {c : Control} {s d : UInt32} {adr : KKAddress}
  {info : KcpInfo} {msg : Message} {recLen : UInt16} {buf : List UInt8}

/-! ### One message that is sent -/

theorem repliesTo_of_sent (h : n'.sent = n.sent) : RepliesTo n n' s d := by
  simp [RepliesTo, h]

theorem header_iff {r : Datagram} : r.header = butTranspondHeadr d s ↔ r.relay = some (d, s) := by
  cases hr : r.relay with
  | none => simp [Datagram.header, hr, butTranspondHeadr]
  | some ids =>
    obtain ⟨a, b⟩ := ids
    simp only [Datagram.header, hr, Option.some.injEq, Prod.mk.injEq]
    exact ⟨butTranspondHeadr_inj, fun ⟨ha, hb⟩ => ha ▸ hb ▸ rfl⟩

theorem repliesTo_sendControl (h : m.sent = n.sent) {nTranId nDestTranId : UInt32} :
    RepliesTo n (m.sendControl c nTranId nDestTranId adr) s d ↔
      nTranId = d ∧ nDestTranId = s ∧ s > 0 := by
  have hsent : (m.sendControl c nTranId nDestTranId adr).sent = n.sent ++
      [{ dest := adr, relay := if nDestTranId > 0 then some (nTranId, nDestTranId) else none
         body := .control c }] := by rw [← h]; rfl
  simp only [RepliesTo, hsent, List.drop_left, List.forall_mem_singleton, header_iff]
  split_ifs with hpos
  · simp only [Option.some.injEq, Prod.mk.injEq]
    exact ⟨fun ⟨hd, hs⟩ => ⟨hd, hs, hs ▸ hpos⟩, fun ⟨hd, hs, _⟩ => ⟨hd, hs⟩⟩
  · simp only [false_iff]
    exact fun ⟨_, hs, hpos'⟩ => hpos (hs ▸ hpos')

/-- A message without a header does not come from a relay id. -/
theorem not_repliesTo_sendKckLost (h : m.sent = n.sent) {conv : UInt32} :
    ¬ RepliesTo n (m.sendKckLost conv adr) s d := by
  rw [sendKckLost, repliesTo_sendControl h]
  rintro ⟨-, rfl, hpos⟩
  exact absurd hpos (by decide)

/-- A packet for the application is not sent. -/
theorem repliesTo_putKKPacket {packet : KKPacket} :
    RepliesTo n (n'.putKKPacket packet) s d ↔ RepliesTo n n' s d := Iff.rfl

/-! ### Handlers -/

theorem synInfo_leadsTo {conv : UInt32} {mtu : UInt16} :
    (synInfo now conv mtu s d adr).nTranId = d ∧ (synInfo now conv mtu s d adr).nDestTranId = s ∧
      s > 0 ↔ s > 0 := by
  refine ⟨fun h => h.2.2, fun h => ?_⟩
  simp [synInfo, h]

theorem onSyn_repliesTo (h : n.onSyn now c s d adr = some n') : RepliesTo n n' s d ↔ s > 0 := by
  obtain ⟨m, info, hm, rfl, rfl⟩ := onSyn_cases h
  have hsent : m.sent = n.sent := by
    rcases freeAt_cases hm with ⟨-, rfl⟩ | ⟨p, info, -, -, -, rfl⟩
    · rfl
    · exact freed_sent ..
  exact (repliesTo_sendControl hsent).trans synInfo_leadsTo

theorem onSynAck_repliesTo (h : n.onSynAck now c s adr = some n') : RepliesTo n n' s d ↔
    ∀ p ∈ n.conIPInfoMap.key1Find (senderKey s adr), ∀ info ∈ n.heap p, info.LeadsTo s d := by
  obtain ⟨p, info, hp, hi, rfl⟩ := onSynAck_cases h
  simp only [hp, hi, Option.mem_def, Option.some.injEq, forall_eq']
  exact repliesTo_sendControl rfl

theorem onAck_repliesTo (h : n.onAck now c s d adr = some n') : RepliesTo n n' s d ↔ s > 0 := by
  have hids : d = d ∧ s = s ∧ s > 0 ↔ s > 0 := by simp
  obtain ⟨p, info, -, -, ⟨-, rfl⟩ | rfl⟩ := onAck_cases h
  · exact (repliesTo_sendControl rfl).trans hids
  · exact (repliesTo_sendControl rfl).trans hids

theorem onLink_repliesTo (h : n.onLink now c s adr = some n') : RepliesTo n n' s d ↔
    ∃ p ∈ n.conIPInfoMap.key1Find (senderKey s adr), ∃ info ∈ n.heap p,
      info.conv = c.conv ∧ info.mtu = c.mtu := by
  unfold onLink at h
  split at h
  · next hp =>
    cases h
    simp [hp, not_repliesTo_sendKckLost]
  · next p hp =>
    obtain ⟨info, hi, h⟩ := Option.bind_eq_some_iff.mp h
    simp only [hp, hi, Option.mem_def, Option.some.injEq, exists_eq_left']
    split_ifs at h with hm
    · cases h
      exact iff_of_true (repliesTo_of_sent rfl) hm
    · cases h
      exact iff_of_false (not_repliesTo_sendKckLost rfl) hm

theorem onKcpHeart_repliesTo (h : n.onKcpHeart now c adr = some n') : RepliesTo n n' s d ↔
    ∃ p ∈ n.conIPInfoMap.key2Find c.conv, ∃ info ∈ n.heap p, info.sponsor ∨ info.LeadsTo s d := by
  obtain ⟨hp, rfl⟩ | ⟨p, info, hp, hi, hheart⟩ := onKcpHeart_cases h
  · simp [hp, not_repliesTo_sendKckLost]
  · simp only [hp, hi, Option.mem_def, Option.some.injEq, exists_eq_left']
    obtain ⟨hsponsor, rfl⟩ | ⟨hsponsor, rfl⟩ := hheart
    · exact iff_of_true (repliesTo_of_sent rfl) (.inl hsponsor)
    · rw [repliesTo_putKKPacket]
      exact (repliesTo_sendControl rfl).trans (or_iff_right hsponsor).symm

theorem onDisConnect_sent (h : n.onDisConnect adr = some n') : n'.sent = n.sent := by
  obtain rfl | ⟨p, info, -, -, rfl⟩ := onDisConnect_cases h <;> rfl

theorem onKckLost_sent (h : n.onKckLost adr = some n') : n'.sent = n.sent := by
  obtain rfl | ⟨p, info, -, -, -, rfl⟩ := onKckLost_cases h
  · rfl
  · exact freed_sent (n.setInfo p { info with state := .kckLost }) p { info with state := .kckLost } true

theorem onTranId_sent {tranId : UInt32} (h : n.onTranId now tranId adr = some n') :
    n'.sent = n.sent := by
  obtain rfl | ⟨p, info, -, -, rfl⟩ := onTranId_cases h <;> rfl

/-- A notice of a missing connection goes out with the ids of the data as they came. -/
theorem onKcp_repliesTo (h : n.onKcp now s d adr = some n') : RepliesTo n n' s d ↔
    (n.conIPInfoMap.key1Find (senderKey s adr)).isSome ∨ (s = d ∧ d > 0) := by
  obtain ⟨hp, rfl⟩ | ⟨p, info, hp, -, rfl⟩ := onKcp_cases h
  · rw [repliesTo_sendControl rfl, hp]
    simp only [Option.isSome_none, Bool.false_eq_true, false_or]
    exact ⟨fun ⟨hs, _, hpos⟩ => ⟨hs, hs ▸ hpos⟩, fun ⟨hs, hpos⟩ => ⟨hs, hs.symm, hs ▸ hpos⟩⟩
  · exact iff_of_true (repliesTo_of_sent rfl) (.inl (by simp [hp]))

theorem onConHandle_repliesTo (h : n.onConHandle now c s d adr = some n') :
    RepliesTo n n' s d ↔ n.Answered adr (.control s d c) := by
  unfold onConHandle at h
  unfold Answered
  cases hc : c.msgId <;> simp only [hc] at h ⊢
  case syn => exact onSyn_repliesTo h
  case synAck => exact onSynAck_repliesTo h
  case ack => exact onAck_repliesTo h
  case link => exact onLink_repliesTo h
  case kcpHeart => exact onKcpHeart_repliesTo h
  case disConnect => exact iff_of_true (repliesTo_of_sent (onDisConnect_sent h)) trivial
  case kckLost => exact iff_of_true (repliesTo_of_sent (onKckLost_sent h)) trivial
  all_goals
    cases h
    exact iff_of_true (repliesTo_of_sent rfl) trivial

/-! ### Datagrams -/

theorem onMessage_repliesTo (hids : msg.HasIds s d) (h : n.onMessage now adr msg = some n') :
    RepliesTo n n' s d ↔ n.Answered adr msg := by
  cases msg with
  | control s' d' c =>
    obtain ⟨rfl, rfl⟩ := hids
    exact onConHandle_repliesTo h
  | kcp s' d' whole =>
    obtain ⟨rfl, rfl⟩ := hids
    unfold onMessage at h
    dsimp only at h
    split at h
    · exact onKcp_repliesTo h
    · obtain ⟨info, -, h⟩ := Option.bind_eq_some_iff.mp h
      split_ifs at h
      exact onKcp_repliesTo h
  | tranId id =>
    refine iff_of_true (repliesTo_of_sent ?_) trivial
    unfold onMessage at h
    dsimp only at h
    split at h
    · cases h
      rfl
    · cases h
    · exact onTranId_sent h
  | udpData =>
    cases h
    exact iff_of_true (repliesTo_of_sent rfl) trivial
  | none =>
    cases h
    exact iff_of_true (repliesTo_of_sent rfl) trivial

/-- To a datagram with a relay header from `s` to `d` a node replies with headers from `d` to `s`
alone, if and only if its message is one that is answered to the sender. -/
theorem onBufHandle_repliesTo {m : DataModel} (hbuf : buf.head? ≠ some 0xAD)
    (h : n.onBufHandle m now (butTranspondHeadr s d ++ buf) recLen 0 0 adr = some n') :
    RepliesTo n n' s d ↔ ∀ msg ∈ readMessage m buf (recLen - 9) s d, n.Answered adr msg := by
  rw [onBufHandle_butTranspondHeadr] at h
  split_ifs at h
  obtain ⟨msg, hmsg, h⟩ := Option.bind_eq_some_iff.mp h
  rw [onMessage_repliesTo (readMessage_hasIds hbuf hmsg) h, hmsg]
  simp

theorem onBufHandle_repliesTo_syn :
    ∃ n', (start true).onBufHandle .lp64 0 (butTranspondHeadr 5 7 ++ ((putsyn 100 5).bytes ++ [0, 0]))
      1436 0 0 ⟨1, 1, 0⟩ = some n' ∧ RepliesTo (start true) n' 5 7 := by
  have hread : readMessage .lp64 ((putsyn 100 5).bytes ++ [0, 0]) (1436 - 9) 5 7 =
    some (.control 5 7 (putsyn 100 5)) := readMessage_bytes (.inl rfl) (by decide) 5 7
  obtain ⟨n', hn⟩ : ∃ n', (start true).onBufHandle .lp64 0
      (butTranspondHeadr 5 7 ++ ((putsyn 100 5).bytes ++ [0, 0])) 1436 0 0 ⟨1, 1, 0⟩ = some n' := by
    rw [onBufHandle_butTranspondHeadr, if_pos (by simp [DataModel.sizeofLong, Control.bytes, htonl]),
      onBufHandle, hread]
    exact ⟨_, rfl⟩
  refine ⟨n', hn, (onBufHandle_repliesTo (by simp [Control.bytes]) hn).mpr fun msg hmsg => ?_⟩
  cases Option.some.inj (hread.symm.trans hmsg)
  exact (by decide : (5 : UInt32) > 0)

/-- Data of a sender that is not connected is answered with a header that leads back to the node. The
datagram has ten bytes, the others are what was in the buffer. -/
theorem onBufHandle_not_repliesTo :
    ∃ n', (start true).onBufHandle .lp64 0 (butTranspondHeadr 5 7 ++ [0xAE, 0, 0, 0]) 10 0 0 ⟨1, 1, 0⟩ =
        some n' ∧
      (∃ r ∈ n'.sent, r.dest = ⟨1, 1, 0⟩ ∧ r.header = butTranspondHeadr 5 7) ∧
      ¬ RepliesTo (start true) n' 5 7 := by
  refine ⟨(start true).sendControl putunlink 5 7 ⟨1, 1, 0⟩, rfl, ⟨_, List.mem_singleton_self _, rfl,
    rfl⟩, ?_⟩
  rw [repliesTo_sendControl rfl]
  decide

end CKKkcp

end KkLicode.Kcp
