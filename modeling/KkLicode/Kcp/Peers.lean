import KkLicode.Kcp.Changes
import KkLicode.Kcp.Replies

/-! Two nodes that talk to each other directly, without a relay server: neither has a
relay id anywhere or takes its leave, and the client never says what only a server says,
nor the server what only a client says. For the entry a connection has on a node it is
stated when it becomes linked. -/

namespace KkLicode.Kcp

/-- The conversation and the MTU of a linked record. -/
def KcpInfo.linked (info : KcpInfo) : Option (UInt32 × UInt16) :=
  if info.state = .link then some (info.conv, info.mtu) else none

namespace CKKkcp

variable {inetAddr : String → UInt32} {n n' m : CKKkcp} {now p : ℕ} {info info' : KcpInfo}
  {c : Control} {k : String} {e : Event} {addr : KKAddress} {ip : UInt32} {port : UInt16}
  {server : Bool}

/-! ### Roles -/

/-- What is heard of a server, and what is heard of a client. -/
def Speaks (server : Bool) (msgId : KKConState) : Prop :=
  msgId ≠ .disConnect ∧
    if server then msgId ≠ .syn ∧ msgId ≠ .ack else msgId ≠ .synAck ∧ msgId ≠ .link

/-- A node without relay ids; of a server it is also said that it has not called anyone. -/
structure Direct (server : Bool) (n : CKKkcp) : Prop where
  adr : n.adrTranId = 0
  record : ∀ p info, n.heap p = some info →
    info.nTranId = 0 ∧ info.nDestTranId = 0 ∧ (server → info.sponsor = false)
  queue : ∀ cmd ∈ n.sendUdpQue,
    cmd.cmd = .connect ∧ cmd.nTranId = 0 ∧ cmd.nDestTranId = 0 ∧ server = false
  sent : ∀ d ∈ n.sent, d.relay = none ∧ ∀ c, d.body = .control c → Speaks server c.msgId

/-- What a node is given to do: a server is sent what clients say and makes its passes, a
client also connects. -/
def Allowed (server : Bool) : Event → Prop
  | .control _ _ _ nTranId nDestTranId c =>
    nTranId = 0 ∧ nDestTranId = 0 ∧ Speaks (!server) c.msgId
  | .connMgrPass _ => True
  | .connect .. | .handleCmd => server = false
  | _ => False

namespace Direct

theorem start (server automaticHeart : Bool) : Direct server (start automaticHeart) where
  adr := rfl
  record _ _ h := nomatch h
  queue _ h := nomatch h
  sent _ h := nomatch h

theorem congr (h : Direct server n) (ha : m.adrTranId = n.adrTranId) (hh : m.heap = n.heap)
    (hq : m.sendUdpQue = n.sendUdpQue) (hs : m.sent = n.sent) : Direct server m where
  adr := ha.trans h.adr
  record := by simpa only [hh] using h.record
  queue := by simpa only [hq] using h.queue
  sent := by simpa only [hs] using h.sent

theorem setInfo (h : Direct server n)
    (hi : info.nTranId = 0 ∧ info.nDestTranId = 0 ∧ (server → info.sponsor = false)) :
    Direct server (n.setInfo p info) where
  adr := h.adr
  record q i hq := by
    by_cases hqp : q = p
    · subst hqp
      rw [setInfo_heap_self] at hq
      cases hq
      exact hi
    · rw [setInfo_heap_ne n hqp] at hq
      exact h.record q i hq
  queue := h.queue
  sent := h.sent

theorem freed (h : Direct server n) (needMsg : Bool) : Direct server (n.freed p info needMsg) where
  adr := by cases needMsg <;> exact h.adr
  record q i hq := h.record q i (heap_of_freed hq).2
  queue := by cases needMsg <;> exact h.queue
  sent := by
    rw [freed_sent]
    exact h.sent

theorem kksend (h : Direct server n) {d : Datagram} (hr : d.relay = none)
    (hb : ∀ c, d.body = .control c → Speaks server c.msgId) : Direct server (n.kksend d) where
  adr := h.adr
  record := h.record
  queue := h.queue
  sent d' hd := by
    rcases List.mem_append.mp hd with hd | hd
    · exact h.sent d' hd
    · cases List.mem_singleton.mp hd
      exact ⟨hr, hb⟩

theorem sendControl (h : Direct server n) (hc : Speaks server c.msgId) {s d : UInt32}
    (hd : d = 0) : Direct server (n.sendControl c s d addr) := by
  refine h.kksend ?_ ?_
  · rw [hd]
    rfl
  · intro c' hc'
    cases hc'
    exact hc

theorem sendKckLost (h : Direct server n) (conv : UInt32) :
    Direct server (n.sendKckLost conv addr) := by
  refine h.sendControl ?_ rfl
  cases server <;> simp [Speaks, putkcplost]

theorem putKKPacket (h : Direct server n) (packet : KKPacket) :
    Direct server (n.putKKPacket packet) := h.congr rfl rfl rfl rfl

theorem addInfo (h : Direct server n)
    (hi : info.nTranId = 0 ∧ info.nDestTranId = 0 ∧ (server → info.sponsor = false)) :
    Direct server (n.addInfo k info) :=
  congr (h.setInfo (p := n.allocated) hi) rfl rfl rfl rfl

theorem openKcp (h : Direct server n)
    (hi : info.nTranId = 0 ∧ info.nDestTranId = 0 ∧ (server → info.sponsor = false)) :
    Direct server (n.openKcp k p info) :=
  have h' : Direct server
      (n.setInfo p { info with kcp := some { id := n.kcps, conv := info.conv } }) := h.setInfo hi
  h'.congr rfl rfl rfl rfl

theorem onSyn (h : Direct true n) (hn : n.onSyn now c 0 0 addr = some n') (ha : addr.destTranId = 0) :
    Direct true n' := by
  obtain ⟨m, info, hm, rfl, rfl⟩ := onSyn_cases hn
  have hstart : Direct true (n.synStart c 0 addr) := ⟨ha, h.record, h.queue, h.sent⟩
  have hm' : Direct true m := by
    rcases freeAt_cases hm with ⟨-, rfl⟩ | ⟨p, info, -, -, -, rfl⟩
    · exact hstart
    · exact hstart.freed false
  refine (hm'.addInfo ⟨rfl, rfl, fun _ => rfl⟩).sendControl ?_ rfl
  simp [Speaks, putsynack]

theorem onSynAck (h : Direct false n) (hn : n.onSynAck now c 0 addr = some n') :
    Direct false n' := by
  obtain ⟨p, info, -, hi, rfl⟩ := onSynAck_cases hn
  obtain ⟨hs, hd, hsp⟩ := h.record p info hi
  refine (h.openKcp ?_).sendControl ?_ hd
  · exact ⟨hs, hd, hsp⟩
  · simp [Speaks, putack]

theorem onAck (h : Direct true n) (hn : n.onAck now c 0 0 addr = some n') : Direct true n' := by
  obtain ⟨p, info, -, hi, ⟨-, rfl⟩ | rfl⟩ := onAck_cases hn
  · refine ((h.openKcp ?_).putKKPacket _).sendControl ?_ rfl
    · exact h.record p info hi
    · simp [Speaks, putlink]
  · refine (h.setInfo ?_).sendControl ?_ rfl
    · exact h.record p info hi
    · simp [Speaks, putlink]

theorem onLink (h : Direct server n) (hn : n.onLink now c 0 addr = some n') : Direct server n' := by
  obtain rfl | ⟨p, info, -, hi, -, rfl⟩ := onLink_cases hn
  · exact h.sendKckLost c.conv
  · refine (h.setInfo ?_).putKKPacket _
    exact h.record p info hi

theorem onKcpHeart (h : Direct server n) (hn : n.onKcpHeart now c addr = some n') :
    Direct server n' := by
  obtain ⟨-, rfl⟩ | ⟨p, info, -, hi, hheart⟩ := onKcpHeart_cases hn
  · exact h.sendKckLost c.conv
  · obtain ⟨hs, hd, hsp⟩ := h.record p info hi
    obtain ⟨-, rfl⟩ | ⟨-, rfl⟩ := hheart
    · refine (h.setInfo ?_).putKKPacket _
      exact ⟨hs, hd, hsp⟩
    · refine ((h.setInfo ?_).sendControl ?_ hd).putKKPacket _
      · exact ⟨hs, hd, hsp⟩
      · cases server <;> simp [Speaks, putkcpheart]

theorem onKckLost (h : Direct server n) (hn : n.onKckLost addr = some n') : Direct server n' := by
  obtain rfl | ⟨p, info, -, hi, -, rfl⟩ := onKckLost_cases hn
  · exact h.putKKPacket _
  · have hset : Direct server (n.setInfo p { info with state := .kckLost }) :=
      h.setInfo (h.record p info hi)
    exact (hset.freed true).putKKPacket _

theorem onConHandle (h : Direct server n) (hc : Speaks (!server) c.msgId)
    (hn : n.onConHandle now c 0 0 (n.adr ip port) = some n') : Direct server n' := by
  unfold CKKkcp.onConHandle at hn
  cases hm : c.msgId <;> simp only [hm] at hn hc
  case disConnect => exact absurd rfl hc.1
  case syn =>
    cases server with
    | true => exact h.onSyn hn h.adr
    | false => exact absurd rfl hc.2.1
  case synAck =>
    cases server with
    | true => exact absurd rfl hc.2.1
    | false => exact h.onSynAck hn
  case ack =>
    cases server with
    | true => exact h.onAck hn
    | false => exact absurd rfl hc.2.2
  case link => exact h.onLink hn
  case kcpHeart => exact h.onKcpHeart hn
  case unLink => exact Option.some.inj hn ▸ h.putKKPacket _
  case kckLost => exact h.onKckLost hn
  all_goals exact Option.some.inj hn ▸ h

theorem manage (h : Direct server n) {r : CKKkcp × Option (Option String)}
    (hn : n.manage now p = some r) : Direct server r.1 := by
  obtain ⟨info, hi, hr⟩ := manage_cases hn
  obtain ⟨hs, hd, hsp⟩ := h.record p info hi
  cases hr with
  | keep a b k ds hds =>
    have hset : Direct server (n.setInfo p (info.timed a b k)) := h.setInfo ⟨hs, hd, hsp⟩
    refine ⟨hset.adr, hset.record, hset.queue, fun d hd' => ?_⟩
    rcases List.mem_append.mp hd' with hd' | hd'
    · exact h.sent d hd'
    · obtain ⟨-, hsend, hrelay⟩ := hds d hd'
      refine ⟨hrelay hd, fun c hc => ?_⟩
      rcases hsend with hb | hb | ⟨-, -, hb⟩ | ⟨hspon, -, hb⟩ | ⟨hspon, -, hb⟩ <;> rw [hb] at hc <;>
        cases hc
      · cases server <;> simp [Speaks, putkcpheart]
      · cases server with
        | true => rw [hsp rfl] at hspon; cases hspon
        | false => simp [Speaks, putsyn]
      · cases server with
        | true => rw [hsp rfl] at hspon; cases hspon
        | false => simp [Speaks, putack]
  | free => exact h.freed true

theorem connMgrPass (h : Direct server n) (hn : n.connMgrPass now = some n') : Direct server n' :=
  passFrom_invariant (fun _ _ _ _ hd _ hr => hd.manage hr) h hn

theorem connect (h : Direct false n) {ip : String} {port : ℤ}
    (hn : n.connect inetAddr now ip port = some n') : Direct false n' := by
  obtain rfl | ⟨-, rfl⟩ := connect_cases hn
  · exact h
  · refine addInfo ⟨h.adr, h.record, fun cmd hcmd => ?_, h.sent⟩ ⟨rfl, rfl, fun h => nomatch h⟩
    rcases List.mem_append.mp hcmd with hcmd | hcmd
    · exact h.queue cmd hcmd
    · cases List.mem_singleton.mp hcmd
      exact ⟨rfl, rfl, rfl, rfl⟩

theorem handleCmd (h : Direct false n) : Direct false n.handleCmd := by
  unfold CKKkcp.handleCmd
  cases hq : n.sendUdpQue with
  | nil => exact h
  | cons cmd rest =>
    obtain ⟨hcmd, hs, hd, -⟩ := h.queue cmd (by rw [hq]; exact List.mem_cons_self)
    have hrest : Direct false { n with sendUdpQue := rest } :=
      ⟨h.adr, h.record, fun cmd' hcmd => h.queue cmd' (by rw [hq]; exact List.mem_cons_of_mem _ hcmd),
        h.sent⟩
    simp only [hcmd]
    exact hrest.sendControl (by simp [Speaks, putsyn]) hd

theorem step (h : Direct server n) (ha : Allowed server e) (hn : n.step inetAddr e = some n') :
    Direct server n' := by
  cases e with
  | connect now ip port =>
    cases ha
    exact h.connect hn
  | handleCmd =>
    cases ha
    exact Option.some.inj hn ▸ h.handleCmd
  | connMgrPass now => exact h.connMgrPass hn
  | control now ip port s d c =>
    obtain ⟨rfl, rfl, hc⟩ := ha
    exact h.onConHandle hc hn
  | _ => exact ha.elim

end Direct

/-! ### What is said -/

/-- What was sent is still sent, and every control message among what is new is `P`. -/
def Sends (n n' : CKKkcp) (P : Control → Prop) : Prop :=
  ∃ ds, n'.sent = n.sent ++ ds ∧ ∀ d ∈ ds, ∀ c, d.body = .control c → P c

theorem Sends.silent {P : Control → Prop} (h : n'.sent = n.sent) : Sends n n' P :=
  ⟨[], by rw [h, List.append_nil], fun _ hd => absurd hd List.not_mem_nil⟩

theorem Sends.said {P : Control → Prop} (hm : m.sent = n.sent) {s d : UInt32} (hP : P c) :
    Sends n (m.sendControl c s d addr) P := by
  refine ⟨[_], congrArg (· ++ _) hm, fun d hd c' hc => ?_⟩
  rw [List.mem_singleton.mp hd] at hc
  cases hc
  exact hP

theorem Sends.trans {P : Control → Prop} (h : Sends n m P) (h' : Sends m n' P) : Sends n n' P := by
  obtain ⟨ds, hds, hP⟩ := h
  obtain ⟨ds', hds', hP'⟩ := h'
  refine ⟨ds ++ ds', by rw [hds', hds, List.append_assoc], fun d hd => ?_⟩
  rcases List.mem_append.mp hd with hd | hd
  · exact hP d hd
  · exact hP' d hd

/-- How a node answers a control message, as far as the handshake goes. -/
structure Answers (n : CKKkcp) (c l : Control) : Prop where
  synAck : l.msgId = .synAck → c.msgId = .syn ∧ (l.conv, l.mtu) = (n.synConv c, synMtu c)
  ack : l.msgId = .ack → c.msgId = .synAck ∧ (l.conv, l.mtu) = (c.conv, c.mtu)
  link : l.msgId = .link → c.msgId = .ack ∧ (l.conv, l.mtu) = (c.conv, c.mtu)

theorem sendKckLost_sends (hm : m.sent = n.sent) (conv : UInt32) (l : Control) :
    Sends n (m.sendKckLost conv addr) (Answers n l) :=
  .said hm ⟨nofun, nofun, nofun⟩

theorem onConHandle_sends {s d : UInt32} (h : n.onConHandle now c s d addr = some n') :
    Sends n n' (Answers n c) := by
  unfold onConHandle at h
  cases hc : c.msgId <;> simp only [hc] at h
  case syn =>
    obtain ⟨m, info, hm, rfl, rfl⟩ := onSyn_cases h
    have hsent : m.sent = n.sent := by
      rcases freeAt_cases hm with ⟨-, rfl⟩ | ⟨p, info, -, -, -, rfl⟩
      · rfl
      · exact freed_sent ..
    refine .said hsent ⟨fun _ => ⟨hc, ?_⟩, nofun, nofun⟩
    rw [synInfo_conv, synInfo_mtu]
    rfl
  case synAck =>
    obtain ⟨p, info, -, -, rfl⟩ := onSynAck_cases h
    exact .said rfl ⟨nofun, fun _ => ⟨hc, rfl⟩, nofun⟩
  case ack =>
    have hlink : Answers n c (putlink c.conv c.mtu) :=
      ⟨nofun, nofun, fun _ => ⟨hc, rfl⟩⟩
    obtain ⟨p, info, -, -, ⟨-, rfl⟩ | rfl⟩ := onAck_cases h
    · exact .said rfl hlink
    · exact .said rfl hlink
  case link =>
    obtain rfl | ⟨p, info, -, -, -, rfl⟩ := onLink_cases h
    · exact sendKckLost_sends rfl c.conv c
    · exact .silent rfl
  case kcpHeart =>
    obtain ⟨-, rfl⟩ | ⟨p, info, -, -, ⟨-, rfl⟩ | ⟨-, rfl⟩⟩ := onKcpHeart_cases h
    · exact sendKckLost_sends rfl c.conv c
    · exact .silent rfl
    · exact .said rfl ⟨nofun, nofun, nofun⟩
  case disConnect => exact .silent (onDisConnect_sent h)
  case kckLost => exact .silent (onKckLost_sent h)
  all_goals exact Option.some.inj h ▸ .silent rfl

/-- The connection manager sends neither a SYNACK nor a LINK. -/
theorem connMgrPass_sends (h : n.connMgrPass now = some n') :
    Sends n n' fun l => l.msgId ≠ .synAck ∧ l.msgId ≠ .link := by
  refine passFrom_invariant (P := fun m => Sends n m _) (fun m k p r hm _ hr => hm.trans ?_)
    (.silent rfl) h
  obtain ⟨info, -, hr⟩ := manage_cases hr
  cases hr with
  | keep a b k ds hds =>
    refine ⟨ds, rfl, fun d hd c hc => ?_⟩
    rcases (hds d hd).2.1 with hb | hb | ⟨-, -, hb⟩ | ⟨-, -, hb⟩ | ⟨-, -, hb⟩ <;> rw [hb] at hc <;>
      cases hc <;> exact ⟨nofun, nofun⟩
  | free => exact .silent (freed_sent ..)

/-! ### When an entry is linked -/

/-- The record under a key. -/
def entry (n : CKKkcp) (k : String) : Option KcpInfo := (n.conIPInfoMap.key1Find k).bind n.heap

/-- The conversation and the MTU with which an entry is linked. -/
def linkOf (n : CKKkcp) (k : String) : Option (UInt32 × UInt16) :=
  (n.entry k).bind KcpInfo.linked

/-- Every entry that is linked was so before, or is linked as `P`. -/
def LinksAs (n n' : CKKkcp) (P : UInt32 × UInt16 → Prop) : Prop :=
  ∀ k, ∀ x ∈ n'.linkOf k, n.linkOf k = some x ∨ P x

variable {P : UInt32 × UInt16 → Prop}

theorem LinksAs.refl (n : CKKkcp) : LinksAs n n P := fun _ _ h => .inl h

theorem LinksAs.trans (h : LinksAs n m P) (h' : LinksAs m n' P) : LinksAs n n' P := fun k x hx =>
  (h' k x hx).elim (h k x) .inr

theorem LinksAs.same (h : LinksAs n m P) (hs : SameTable m n') : LinksAs n n' P := by
  intro k x hx
  refine h k x ?_
  rwa [linkOf, entry, hs.conIPInfoMap, hs.heap] at hx

theorem linkOf_eq_some {x : UInt32 × UInt16} : n.linkOf k = some x ↔
    ∃ p info, n.conIPInfoMap.key1Find k = some p ∧ n.heap p = some info ∧ info.linked = some x := by
  simp only [linkOf, entry, Option.bind_eq_some_iff]
  constructor
  · rintro ⟨info, ⟨p, hp, hi⟩, hl⟩
    exact ⟨p, info, hp, hi, hl⟩
  · rintro ⟨p, info, hp, hi, hl⟩
    exact ⟨info, ⟨p, hp, hi⟩, hl⟩

theorem setInfo_linksAs (info' : KcpInfo) (hi : n.heap p = some info)
    (h : ∀ x ∈ info'.linked, info.linked = some x ∨ P x) : LinksAs n (n.setInfo p info') P := by
  intro k x hx
  obtain ⟨q, i, hq, hiq, hl⟩ := linkOf_eq_some.mp hx
  by_cases hqp : q = p
  · subst hqp
    rw [setInfo_heap_self] at hiq
    cases hiq
    exact (h x hl).imp_left fun h => linkOf_eq_some.mpr ⟨q, info, hq, hi, h⟩
  · rw [setInfo_heap_ne n hqp] at hiq
    exact .inl (linkOf_eq_some.mpr ⟨q, i, hq, hiq, hl⟩)

theorem freed_linksAs (needMsg : Bool) : LinksAs n (n.freed p info needMsg) P := by
  intro k x hx
  obtain ⟨q, i, hq, hiq, hl⟩ := linkOf_eq_some.mp hx
  rw [freed_conIPInfoMap, TwoKeyMap.key1Find_key1Del] at hq
  split_ifs at hq
  exact .inl (linkOf_eq_some.mpr ⟨q, i, hq, (heap_of_freed hiq).2, hl⟩)

theorem addInfo_linksAs (info : KcpInfo) (h : info.linked = none) : LinksAs n (n.addInfo k info) P := by
  intro j x hx
  obtain ⟨q, i, hq, hiq, hl⟩ := linkOf_eq_some.mp hx
  by_cases hqp : q = n.allocated
  · subst hqp
    rw [addInfo_heap_self] at hiq
    cases hiq
    rw [h] at hl
    cases hl
  · rw [addInfo_heap_ne n k info hqp] at hiq
    refine .inl (linkOf_eq_some.mpr ⟨q, i, ?_, hiq, hl⟩)
    unfold addInfo at hq
    rw [TwoKeyMap.key1Find_key1Insert] at hq
    split_ifs at hq with hj
    · subst hj
      cases hfind : n.conIPInfoMap.key1Find j with
      | none =>
        rw [hfind] at hq
        exact absurd (Option.some.inj hq).symm hqp
      | some q' =>
        rw [hfind] at hq
        exact hq
    · exact hq

theorem linked_eq_none (h : info.state ≠ .link) : info.linked = none := if_neg h

/-- A record whose state is not that of a link any more. -/
theorem setInfo_linksAs_none (hi : n.heap p = some info) (h : info'.state ≠ .link) :
    LinksAs n (n.setInfo p info') P :=
  setInfo_linksAs _ hi fun x hx => by
    rw [linked_eq_none h] at hx
    cases hx

theorem openKcp_linksAs (info' : KcpInfo) (hi : n.heap p = some info)
    (h : ∀ x ∈ info'.linked, info.linked = some x ∨ P x) : LinksAs n (n.openKcp k p info') P :=
  setInfo_linksAs { info' with kcp := some { id := n.kcps, conv := info'.conv } } hi h

theorem onSyn_linksAs {s d : UInt32} (h : n.onSyn now c s d addr = some n') : LinksAs n n' P := by
  obtain ⟨m, info, hm, hinfo, rfl⟩ := onSyn_cases h
  have hstart : LinksAs n (n.synStart c s addr) P := (LinksAs.refl n).same ⟨rfl, rfl, rfl⟩
  have hm' : LinksAs n m P := by
    rcases freeAt_cases hm with ⟨-, rfl⟩ | ⟨p, old, -, -, -, rfl⟩
    · exact hstart
    · exact hstart.trans (freed_linksAs false)
  have hnone : info.linked = none := linked_eq_none (by rw [hinfo, synInfo_state]; nofun)
  exact (hm'.trans (addInfo_linksAs info hnone)).same ⟨rfl, rfl, rfl⟩

theorem onConHandle_linksAs {s d : UInt32} (h : n.onConHandle now c s d addr = some n') :
    LinksAs n n' fun x => c.msgId = .ack ∨ c.msgId = .link ∧ x = (c.conv, c.mtu) := by
  unfold onConHandle at h
  cases hc : c.msgId <;> simp only [hc] at h
  case disConnect =>
    obtain rfl | ⟨p, info, -, hi, rfl⟩ := onDisConnect_cases h
    · exact .refl n'
    · exact setInfo_linksAs_none hi (by nofun)
  case syn => exact onSyn_linksAs h
  case synAck =>
    obtain ⟨p, info, -, hi, rfl⟩ := onSynAck_cases h
    refine LinksAs.same (openKcp_linksAs (k := senderKey s addr) { info with
      state := .ack, sendtick := now, conv := c.conv, handShake := 0, mtu := c.mtu } hi ?_)
      ⟨rfl, rfl, rfl⟩
    rintro x ⟨⟩
  case ack => exact fun _ _ _ => .inr (.inl rfl)
  case link =>
    obtain rfl | ⟨p, info, -, hi, ⟨hconv, hmtu⟩, rfl⟩ := onLink_cases h
    · exact .same (.refl n) ⟨rfl, rfl, rfl⟩
    · refine LinksAs.same (setInfo_linksAs { info with
        state := .link, sendtick := now, handShake := 0 } hi ?_) ⟨rfl, rfl, rfl⟩
      rintro x ⟨⟩
      exact .inr (.inr ⟨rfl, by rw [hconv, hmtu]⟩)
  case kcpHeart =>
    obtain ⟨-, rfl⟩ | ⟨p, info, -, hi, ⟨-, rfl⟩ | ⟨-, rfl⟩⟩ := onKcpHeart_cases h
    · exact .same (.refl n) ⟨rfl, rfl, rfl⟩
    · exact LinksAs.same (setInfo_linksAs { info with
        sendtick := now, rectick := now } hi fun x hx => .inl hx) ⟨rfl, rfl, rfl⟩
    · exact LinksAs.same (setInfo_linksAs { info with sendtick := now } hi
        fun x hx => .inl hx) ⟨rfl, rfl, rfl⟩
  case kckLost =>
    obtain rfl | ⟨p, info, -, hi, -, rfl⟩ := onKckLost_cases h
    · exact .same (.refl n) ⟨rfl, rfl, rfl⟩
    · exact LinksAs.same ((setInfo_linksAs_none hi (by nofun)).trans (freed_linksAs true))
        ⟨rfl, rfl, rfl⟩
  all_goals exact Option.some.inj h ▸ .same (.refl n) ⟨rfl, rfl, rfl⟩

theorem connMgrPass_linksAs (h : n.connMgrPass now = some n') : LinksAs n n' P := by
  refine passFrom_invariant (P := fun m => LinksAs n m P) (fun m k p r hm _ hr => hm.trans ?_)
    (.refl n) h
  obtain ⟨info, hi, hr⟩ := manage_cases hr
  cases hr with
  | keep a b k ds hds =>
    exact LinksAs.same (setInfo_linksAs (info.timed a b k) hi fun x hx => .inl hx)
      ⟨rfl, rfl, rfl⟩
  | free => exact freed_linksAs true

theorem connect_linksAs {ip : String} {port : ℤ} (h : n.connect inetAddr now ip port = some n') :
    LinksAs n n' P := by
  obtain rfl | ⟨-, rfl⟩ := connect_cases h
  · exact .refl n'
  · exact LinksAs.same (addInfo_linksAs (k := hostKey ip port)
      { conv := n.curConv + 1, addr := fromString inetAddr ip port 0, state := .syn
        sponsor := true, sendtick := now, rectick := now } rfl) ⟨rfl, rfl, rfl⟩

end CKKkcp

end KkLicode.Kcp
