import KkLicode.Kcp.ControlBlocks
import KkLicode.Kcp.Handshake

/-! What datagrams of a handshake do that come to a client and a server which are
linked already. An ACK and a LINK change no link. A SYN makes the server delete its
record and begin anew, a SYNACK makes the client open another control block, and
neither node has its old block again. -/

namespace KkLicode.Kcp

open Base CKKkcp

/-- The conversation and the control block of a linked record. -/
def KcpInfo.linkedKcp (info : KcpInfo) : Option (UInt32 × Option IKcpCb) :=
  if info.state = .link then some (info.conv, info.kcp) else none

/-- The kind of a control message. -/
def Datagram.msgId (d : Datagram) : Option KKConState :=
  match d.body with
  | .control c => some c.msgId
  | _ => none

theorem Datagram.msgId_eq_some {d : Datagram} {id : KKConState} :
    d.msgId = some id ↔ ∃ c, d.body = .control c ∧ c.msgId = id := by
  unfold msgId
  cases d.body <;> simp

namespace CKKkcp

variable {n n' : CKKkcp} {now p K : ℕ} {info info' : KcpInfo} {c : Control} {k : String}
  {addr : KKAddress} {server : Bool} {x : UInt32 × Option IKcpCb}

/-- The conversation and the control block with which an entry is linked. -/
def kcpOf (n : CKKkcp) (k : String) : Option (UInt32 × Option IKcpCb) :=
  (n.entry k).bind KcpInfo.linkedKcp

theorem entry_eq_some : n.entry k = some info ↔
    ∃ p, n.conIPInfoMap.key1Find k = some p ∧ n.heap p = some info := Option.bind_eq_some_iff

theorem eq_of_entry (h : n.entry k = some info') (hp : n.conIPInfoMap.key1Find k = some p)
    (hi : n.heap p = some info) : info' = info :=
  Option.some.inj (h.symm.trans (entry_eq_some.mpr ⟨p, hp, hi⟩))

theorem kcpOf_eq_some : n.kcpOf k = some x ↔ ∃ p info, n.conIPInfoMap.key1Find k = some p ∧
    n.heap p = some info ∧ info.state = .link ∧ x = (info.conv, info.kcp) := by
  simp only [kcpOf, Option.bind_eq_some_iff, entry_eq_some, KcpInfo.linkedKcp,
    Option.ite_none_right_eq_some, Option.some.injEq]
  constructor
  · rintro ⟨info, ⟨p, hp, hi⟩, hs, rfl⟩
    exact ⟨p, info, hp, hi, hs, rfl⟩
  · rintro ⟨p, info, hp, hi, hs, rfl⟩
    exact ⟨info, ⟨p, hp, hi⟩, hs, rfl⟩

/-! ### Messages without effect -/

/-- A record that is linked takes no ACK. -/
theorem onAck_kcpOf (now : ℕ) (c : Control) (h : n.kcpOf addr.toString = some x) :
    ∃ n', n.onAck now c 0 0 addr = some n' ∧ n'.kcpOf addr.toString = some x := by
  obtain ⟨p, info, hp, hi, hs, rfl⟩ := kcpOf_eq_some.mp h
  have hm : ¬(info.state = .synAck ∧ info.conv = c.conv ∧ info.mtu = c.mtu) := by
    rintro ⟨hsyn, -⟩
    rw [hs] at hsyn
    cases hsyn
  have hk : n.conIPInfoMap.key1Find (senderKey 0 addr) = some p := hp
  refine ⟨_, onAck_eq_other hk hi hm, ?_⟩
  exact kcpOf_eq_some.mpr ⟨p, _, hp, setInfo_heap_self .., hs, rfl⟩

theorem onLink_kcpOf (now : ℕ) (c : Control) (h : n.kcpOf addr.toString = some x) :
    ∃ n', n.onLink now c 0 addr = some n' ∧ n'.kcpOf addr.toString = some x := by
  obtain ⟨p, info, hp, hi, hs, rfl⟩ := kcpOf_eq_some.mp h
  have hk : n.conIPInfoMap.key1Find (senderKey 0 addr) = some p := hp
  unfold onLink
  simp only [hk, hi, Option.bind_eq_bind, Option.bind_some]
  split_ifs
  · exact ⟨_, rfl, kcpOf_eq_some.mpr ⟨p, _, hp, setInfo_heap_self .., rfl, rfl⟩⟩
  · exact ⟨_, rfl, kcpOf_eq_some.mpr ⟨p, info, hp, hi, hs, rfl⟩⟩

/-! ### Messages that begin anew -/

/-- The blocks below `K` are not those of the entry, or of a server's entry that is linked. -/
structure Renewed (server : Bool) (K : ℕ) (n : CKKkcp) (k : String) : Prop where
  kcps : K ≤ n.kcps
  entry : ∀ info, n.entry k = some info → (server → info.state = .link) →
    ∃ kcp, info.kcp = some kcp ∧ K ≤ kcp.id

theorem Renewed.not_old (h : Renewed server K n k) {conv : UInt32} {old : Option IKcpCb}
    (hold : ∀ kcp ∈ old, kcp.id < K) : n.kcpOf k ≠ some (conv, old) := by
  intro hx
  obtain ⟨p, info, hp, hi, hs, hx⟩ := kcpOf_eq_some.mp hx
  obtain ⟨kcp, hk, hle⟩ := h.entry info (entry_eq_some.mpr ⟨p, hp, hi⟩) fun _ => hs
  have hlt : kcp.id < K := hold kcp ((Prod.mk.inj hx).2.trans hk)
  omega

theorem onSyn_renewed (hK : K ≤ n.kcps) (h : n.onSyn now c 0 0 addr = some n') :
    Renewed true K n' addr.toString where
  kcps := hK.trans (onConHandle_opens (c := { c with msgId := .syn }) h).kcps
  entry info' hinfo hlink := by
    obtain ⟨m, info, hm, hinfo', rfl⟩ := onSyn_cases h
    have haddr : info.addr = addr := by
      rw [hinfo', synInfo_addr]
      rfl
    have hstate : info.state = .synAck := by rw [hinfo', synInfo_state]
    obtain ⟨q, hq, hi⟩ := entry_eq_some.mp hinfo
    have hq : (m.conIPInfoMap.key1Insert info.addr.toString m.allocated).key1Find addr.toString =
      some q := hq
    have hi : (m.addInfo info.addr.toString info).heap q = some info' := hi
    by_cases hqm : q = m.allocated
    · rw [hqm, addInfo_heap_self] at hi
      cases hi
      rw [hlink rfl] at hstate
      cases hstate
    · -- the table still leads to a record that was freed
      exfalso
      rw [addInfo_heap_ne m _ info hqm] at hi
      rw [haddr, TwoKeyMap.key1Find_key1Insert, if_pos rfl] at hq
      cases hf : m.conIPInfoMap.key1Find addr.toString with
      | none =>
        rw [hf] at hq
        exact hqm (Option.some.inj hq).symm
      | some r =>
        rw [hf] at hq
        obtain rfl : r = q := Option.some.inj hq
        rcases freeAt_cases hm with ⟨hnone, rfl⟩ | ⟨p, old, hp, -, -, rfl⟩
        · cases hnone.symm.trans hf
        · rw [freed_conIPInfoMap, TwoKeyMap.key1Find_key1Del] at hf
          split_ifs at hf
          exact (heap_of_freed hi).1 (Option.some.inj (hf.symm.trans hp))

theorem Renewed.onAck (hr : Renewed true K n addr.toString) (h : n.onAck now c 0 0 addr = some n') :
    Renewed true K n' addr.toString where
  kcps := hr.kcps.trans (onConHandle_opens (c := { c with msgId := .ack }) h).kcps
  entry info' hinfo hlink := by
    obtain ⟨p, info, hp, hi, ⟨-, rfl⟩ | rfl⟩ := onAck_cases h
    · obtain rfl := eq_of_entry hinfo hp (openKcp_heap_self n (senderKey 0 addr) p _)
      exact ⟨_, rfl, hr.kcps⟩
    · obtain rfl := eq_of_entry hinfo hp (setInfo_heap_self n p _)
      exact hr.entry info (entry_eq_some.mpr ⟨p, hp, hi⟩) hlink

theorem onSynAck_renewed (hK : K ≤ n.kcps) (h : n.onSynAck now c 0 addr = some n') :
    Renewed false K n' addr.toString where
  kcps := hK.trans (onConHandle_opens (d := 0) (c := { c with msgId := .synAck }) h).kcps
  entry info' hinfo _ := by
    obtain ⟨p, info, hp, hi, rfl⟩ := onSynAck_cases h
    obtain rfl := eq_of_entry hinfo hp (openKcp_heap_self n (senderKey 0 addr) p _)
    exact ⟨_, rfl, hK⟩

theorem Renewed.onLink (hr : Renewed false K n addr.toString) (h : n.onLink now c 0 addr = some n') :
    Renewed false K n' addr.toString where
  kcps := hr.kcps.trans (onConHandle_opens (d := 0) (c := { c with msgId := .link }) h).kcps
  entry info' hinfo hlink := by
    obtain rfl | ⟨p, info, hp, hi, -, rfl⟩ := onLink_cases h
    · exact hr.entry info' hinfo hlink
    · obtain rfl := eq_of_entry hinfo hp (setInfo_heap_self n p _)
      exact hr.entry info (entry_eq_some.mpr ⟨p, hp, hi⟩) fun h => nomatch h

end CKKkcp

namespace Handshake

variable (net : Net) (s : Handshake)

/-- Both entries are linked, with one conversation. -/
def Linked : Prop :=
  ∃ conv k k', s.client.kcpOf net.serverAddr.toString = some (conv, k) ∧
    s.server.kcpOf net.clientAddr.toString = some (conv, k')

/-- Both entries are linked as before, with the control blocks they had. -/
def Intact (s' : Handshake) : Prop :=
  s'.client.kcpOf net.serverAddr.toString = s.client.kcpOf net.serverAddr.toString ∧
    s'.server.kcpOf net.clientAddr.toString = s.server.kcpOf net.clientAddr.toString

/-- What is delivered. -/
def delivered : Move → Option Datagram
  | .toServer _ i => s.client.sent[i]?
  | .toClient _ i => s.server.sent[i]?
  | _ => none

/-- A SYN, SYNACK, ACK or LINK is delivered that was sent already. -/
def IsStale (mv : Move) : Prop :=
  ∃ d ∈ s.delivered mv, ∃ id ∈ d.msgId, id ∈ [KKConState.syn, .synAck, .ack, .link]

/-- A SYN, which clients send, or a SYNACK, which servers send, is delivered. -/
def Restarts (mv : Move) : Prop :=
  ∃ d ∈ s.delivered mv, ∃ id ∈ d.msgId, id ∈ [KKConState.syn, .synAck]

instance (mv : Move) : Decidable (s.IsStale mv) := inferInstanceAs (Decidable (∃ _, _ ∧ _))

instance (mv : Move) : Decidable (s.Restarts mv) := inferInstanceAs (Decidable (∃ _, _ ∧ _))

/-- Both nodes keep to their roles and number their control blocks. -/
structure Peers : Prop extends Roles s where
  clientKcps : Numbered s.client
  serverKcps : Numbered s.server

variable {net s} {s' s'' : Handshake} {mv : Move}

theorem Peers.step (h : Peers s) (hs : s.step net mv = some s') : Peers s' := by
  have hr := h.toRoles.step hs
  rcases h.step_cases hs with ⟨n, rfl, rfl | ⟨e, ha, hn⟩⟩ | ⟨n, rfl, rfl | ⟨e, ha, hn⟩⟩
  · exact h
  · exact ⟨hr, (step_opens ha hn).numbered h.clientKcps, h.serverKcps⟩
  · exact ⟨hr, h.clientKcps, h.serverKcps⟩
  · exact ⟨hr, h.clientKcps, (step_opens ha hn).numbered h.serverKcps⟩

theorem Peers.run {clientHeart serverHeart : Bool} {moves : List Move}
    (hs : Runs.final (advance net) (some (start clientHeart serverHeart)) moves = some s) :
    Peers s := by
  have hsteps : Runs.Steps (advance net) (fun _ _ => True)
      (some (start clientHeart serverHeart)) moves := Runs.steps_true _ _
  refine hsteps.invariant (P := fun o => ∀ s ∈ o, Peers s) ?_ ?_ s hs
  · intro o mv hp _ s' hs'
    obtain ⟨s, hs, hstep⟩ := Option.bind_eq_some_iff.mp hs'
    exact (hp s hs).step hstep
  · rintro s ⟨⟩
    exact ⟨⟨.start false clientHeart, .start true serverHeart⟩, numbered_start _, numbered_start _⟩

/-! ### Deliveries -/

/-- What was sent is still there, and the control blocks were counted on. -/
structure Since (s s' : Handshake) : Prop extends Roles s' where
  clientSent : ∃ ds, s'.client.sent = s.client.sent ++ ds
  serverSent : ∃ ds, s'.server.sent = s.server.sent ++ ds
  clientKcps : s.client.kcps ≤ s'.client.kcps
  serverKcps : s.server.kcps ≤ s'.server.kcps

/-- What comes to a node from its peer. -/
theorem deliver_control {m n : CKKkcp} {server : Bool} {now : ℕ} {source : KKAddress} {d : Datagram}
    {c : Control} (hm : Direct server m) (hd : d ∈ m.sent) (hn : n.adrTranId = 0)
    (hsource : source.destTranId = 0) (hb : d.body = .control c) :
    net.deliver n now source d = n.onConHandle now c 0 0 source := by
  obtain ⟨hrelay, -⟩ := hm.sent d hd
  have hadr : n.adr source.ip source.port = source := by
    unfold CKKkcp.adr
    rw [hn, ← hsource]
  unfold Net.deliver
  simp only [hb, hrelay, CKKkcp.step]
  rw [hadr]
  rfl

/-- A stale datagram comes to the server or to the client. -/
theorem Since.step_eq (net : Net) (h : Since s s') (hm : s.IsStale mv) :
    (∃ now c, s'.step net mv =
        (s'.server.onConHandle now c 0 0 net.clientAddr).map (s'.setServer net) ∧
      (c.msgId = .syn ∧ s.Restarts mv ∨ c.msgId = .ack ∧ ¬ s.Restarts mv)) ∨
    ∃ now c, s'.step net mv =
        (s'.client.onConHandle now c 0 0 net.serverAddr).map (fun n => { s' with client := n }) ∧
      (c.msgId = .synAck ∧ s.Restarts mv ∨ c.msgId = .link ∧ ¬ s.Restarts mv) := by
  obtain ⟨d, hd, id, hid, hmem⟩ := hm
  obtain ⟨c, hb, rfl⟩ := Datagram.msgId_eq_some.mp hid
  have hrestarts : s.Restarts mv ↔ c.msgId ∈ [KKConState.syn, .synAck] := by
    constructor
    · rintro ⟨d', hd', id', hid', hmem'⟩
      obtain rfl := Option.some.inj (hd.symm.trans hd')
      obtain rfl := Option.some.inj (hid.symm.trans hid')
      exact hmem'
    · exact fun hc => ⟨d, hd, c.msgId, hid, hc⟩
  rw [hrestarts]
  cases mv with
  | toServer now i =>
    obtain ⟨ds, hds⟩ := h.clientSent
    have hd' : s'.client.sent[i]? = some d := by
      rw [hds, List.getElem?_append_left (List.getElem?_eq_some_iff.mp hd).1]
      exact hd
    have hmem' := List.mem_of_getElem? hd'
    obtain ⟨-, hsynAck, hlink⟩ := (h.client.sent d hmem').2 c hb
    refine .inl ⟨now, c, ?_, ?_⟩
    · simp only [Handshake.step, hd']
      rw [deliver_control h.client hmem' h.server.adr rfl hb]
    · simp only [List.mem_cons, List.not_mem_nil, or_false] at hmem ⊢
      rcases hmem with hc | hc | hc | hc <;> simp_all
  | toClient now i =>
    obtain ⟨ds, hds⟩ := h.serverSent
    have hd' : s'.server.sent[i]? = some d := by
      rw [hds, List.getElem?_append_left (List.getElem?_eq_some_iff.mp hd).1]
      exact hd
    have hmem' := List.mem_of_getElem? hd'
    obtain ⟨-, hsyn, hack⟩ := (h.server.sent d hmem').2 c hb
    refine .inr ⟨now, c, ?_, ?_⟩
    · simp only [Handshake.step, hd']
      rw [deliver_control h.server hmem' h.client.adr rfl hb]
    · simp only [List.mem_cons, List.not_mem_nil, or_false] at hmem ⊢
      rcases hmem with hc | hc | hc | hc <;> simp_all
  | _ => cases hd

theorem Since.step (h : Since s s') (hm : s.IsStale mv) (hs : s'.step net mv = some s'') :
    Since s s'' := by
  have hr := h.toRoles.step hs
  rcases h.step_eq net hm with ⟨now, c, heq, -⟩ | ⟨now, c, heq, -⟩ <;> rw [heq] at hs
  · obtain ⟨n, hn, rfl⟩ := Option.map_eq_some_iff.mp hs
    obtain ⟨ds, hds⟩ := h.serverSent
    obtain ⟨ds', hds', -⟩ := onConHandle_sends hn
    exact ⟨hr, h.clientSent, ⟨ds ++ ds', hds'.trans (by rw [hds, List.append_assoc])⟩, h.clientKcps,
      h.serverKcps.trans (onConHandle_opens hn).kcps⟩
  · obtain ⟨n, hn, rfl⟩ := Option.map_eq_some_iff.mp hs
    obtain ⟨ds, hds⟩ := h.clientSent
    obtain ⟨ds', hds', -⟩ := onConHandle_sends hn
    exact ⟨hr, ⟨ds ++ ds', hds'.trans (by rw [hds, List.append_assoc])⟩, h.serverSent,
      h.clientKcps.trans (onConHandle_opens hn).kcps, h.serverKcps⟩

/-- One of the nodes has begun anew. -/
def Changed (net : Net) (s s' : Handshake) : Prop :=
  Renewed true s.server.kcps s'.server net.clientAddr.toString ∨
    Renewed false s.client.kcps s'.client net.serverAddr.toString

theorem Changed.not_intact (h : Changed net s s') (hp : Peers s) (hl : s.Linked net) :
    ¬ s.Intact net s' := by
  rintro ⟨hclient, hserver⟩
  obtain ⟨conv, k, k', hk, hk'⟩ := hl
  rcases h with h | h
  · obtain ⟨p, info, -, hi, -, hx⟩ := kcpOf_eq_some.mp hk'
    refine h.not_old (fun kcp hkcp => ?_) (hserver.trans hk')
    exact hp.serverKcps p info hi kcp ((Prod.mk.inj hx).2.symm.trans hkcp)
  · obtain ⟨p, info, -, hi, -, hx⟩ := kcpOf_eq_some.mp hk
    refine h.not_old (fun kcp hkcp => ?_) (hclient.trans hk)
    exact hp.clientKcps p info hi kcp ((Prod.mk.inj hx).2.symm.trans hkcp)

theorem Since.changed (h : Since s s') (hm : s.IsStale mv) (hr : Changed net s s' ∨ s.Restarts mv)
    (hs : s'.step net mv = some s'') : Changed net s s'' := by
  rcases h.step_eq net hm with ⟨now, c, heq, hc⟩ | ⟨now, c, heq, hc⟩ <;> rw [heq] at hs
  · obtain ⟨n, hn, rfl⟩ := Option.map_eq_some_iff.mp hs
    unfold onConHandle at hn
    rcases hc with ⟨hsyn, -⟩ | ⟨hack, hnot⟩
    · simp only [hsyn] at hn
      exact .inl (onSyn_renewed h.serverKcps hn)
    · simp only [hack] at hn
      exact (hr.resolve_right hnot).imp_left fun hserver => hserver.onAck hn
  · obtain ⟨n, hn, rfl⟩ := Option.map_eq_some_iff.mp hs
    unfold onConHandle at hn
    rcases hc with ⟨hsynAck, -⟩ | ⟨hlink, hnot⟩
    · simp only [hsynAck] at hn
      exact .inr (onSynAck_renewed h.clientKcps hn)
    · simp only [hlink] at hn
      exact (hr.resolve_right hnot).imp_right fun hclient => hclient.onLink hn

theorem Since.intact (h : Since s s') (hl : s.Linked net) (hm : s.IsStale mv)
    (hr : ¬ s.Restarts mv) (hi : s.Intact net s') :
    ∃ s'', s'.step net mv = some s'' ∧ s.Intact net s'' := by
  obtain ⟨conv, k, k', hk, hk'⟩ := hl
  rcases h.step_eq net hm with ⟨now, c, heq, hc⟩ | ⟨now, c, heq, hc⟩
  · obtain ⟨hack, -⟩ := hc.resolve_left fun hc => hr hc.2
    obtain ⟨n, hn, hkcp⟩ := onAck_kcpOf now c (hi.2.trans hk')
    refine ⟨s'.setServer net n, ?_, hi.1, hkcp.trans hk'.symm⟩
    simp only [heq, onConHandle, hack, hn, Option.map_some]
  · obtain ⟨hlink, -⟩ := hc.resolve_left fun hc => hr hc.2
    obtain ⟨n, hn, hkcp⟩ := onLink_kcpOf now c (hi.1.trans hk)
    refine ⟨{ s' with client := n }, ?_, hkcp.trans hk.symm, hi.2⟩
    simp only [heq, onConHandle, hlink, hn, Option.map_some]

/-! ### Runs -/

theorem final_none (moves : List Move) : Runs.final (advance net) none moves = none := by
  induction moves with
  | nil => rfl
  | cons mv moves ih => exact ih

theorem Since.changed_run {stale : List Move} (h : Since s s') (hstale : ∀ mv ∈ stale, s.IsStale mv)
    (hr : Changed net s s' ∨ ∃ mv ∈ stale, s.Restarts mv)
    (hs : Runs.final (advance net) (some s') stale = some s'') : Changed net s s'' := by
  induction stale generalizing s' with
  | nil =>
    cases hs
    exact hr.resolve_right fun ⟨_, hmv, _⟩ => absurd hmv List.not_mem_nil
  | cons mv stale ih =>
    have hm : s.IsStale mv := hstale mv List.mem_cons_self
    have hs : Runs.final (advance net) (s'.step net mv) stale = some s'' := hs
    cases hstep : s'.step net mv with
    | none =>
      rw [hstep, final_none] at hs
      cases hs
    | some t =>
      rw [hstep] at hs
      refine ih (h.step hm hstep) (fun mv' hmv => hstale mv' (List.mem_cons_of_mem _ hmv)) ?_ hs
      rcases hr with hr | ⟨mv', hmv', hr⟩
      · exact .inl (h.changed hm (.inl hr) hstep)
      · rcases List.mem_cons.mp hmv' with rfl | hmv'
        · exact .inl (h.changed hm (.inr hr) hstep)
        · exact .inr ⟨mv', hmv', hr⟩

theorem Since.intact_run {stale : List Move} (h : Since s s') (hl : s.Linked net)
    (hstale : ∀ mv ∈ stale, s.IsStale mv) (hr : ∀ mv ∈ stale, ¬ s.Restarts mv)
    (hi : s.Intact net s') :
    ∃ s'' ∈ Runs.final (advance net) (some s') stale, s.Intact net s'' := by
  induction stale generalizing s' with
  | nil => exact ⟨s', rfl, hi⟩
  | cons mv stale ih =>
    have hm : s.IsStale mv := hstale mv List.mem_cons_self
    obtain ⟨t, ht, hit⟩ := h.intact hl hm (hr mv List.mem_cons_self) hi
    obtain ⟨s'', hs'', hi''⟩ := ih (h.step hm ht)
      (fun mv' hmv => hstale mv' (List.mem_cons_of_mem _ hmv))
      (fun mv' hmv => hr mv' (List.mem_cons_of_mem _ hmv)) hit
    refine ⟨s'', ?_, hi''⟩
    rw [Runs.final_cons]
    show s'' ∈ Runs.final (advance net) (s'.step net mv) stale
    rwa [ht]

/-- When both entries are linked with one conversation, stale datagrams of the handshake leave the
two links and their control blocks alone exactly if no SYN and no SYNACK is among them. -/
theorem intact_iff (net : Net) (clientHeart serverHeart : Bool) (moves : List Move) {s : Handshake}
    (hs : Runs.final (advance net) (some (start clientHeart serverHeart)) moves = some s)
    (hl : s.Linked net) {stale : List Move} (hstale : ∀ mv ∈ stale, s.IsStale mv) :
    (∃ s' ∈ Runs.final (advance net) (some s) stale, s.Intact net s') ↔
      ∀ mv ∈ stale, ¬ s.Restarts mv := by
  have hp : Peers s := .run hs
  have h : Since s s :=
    ⟨hp.toRoles, ⟨[], (List.append_nil _).symm⟩, ⟨[], (List.append_nil _).symm⟩, le_rfl, le_rfl⟩
  constructor
  · rintro ⟨s', hs', hi⟩ mv hmv hr
    exact (h.changed_run hstale (.inr ⟨mv, hmv, hr⟩) hs').not_intact hp hl hi
  · exact fun hr => h.intact_run hl hstale hr ⟨rfl, rfl⟩

/-- The moves up to the link. -/
def handshake : List Move :=
  [.connect 0, .command, .toServer 1 0, .toClient 2 0, .toServer 3 1, .toClient 4 1]

instance : Decidable (s.Linked net) :=
  decidable_of_iff (∃ x ∈ s.client.kcpOf net.serverAddr.toString,
      ∃ y ∈ s.server.kcpOf net.clientAddr.toString, x.1 = y.1) <| by
    constructor
    · rintro ⟨⟨conv, k⟩, hk, ⟨-, k'⟩, hk', rfl⟩
      exact ⟨conv, k, k', hk, hk'⟩
    · rintro ⟨conv, k, k', hk, hk'⟩
      exact ⟨_, hk, _, hk', rfl⟩

theorem intact_handshake :
    ∃ s, Runs.final (advance plain) (some (start true true)) handshake = some s ∧ s.Linked plain ∧
      ((∃ s' ∈ Runs.final (advance plain) (some s) [.toServer 5 1, .toClient 6 1], s.Intact plain s') ↔
        ∀ mv ∈ [Move.toServer 5 1, Move.toClient 6 1], ¬ s.Restarts mv) := by
  have hrun : ((Runs.final (advance plain) (some (start true true)) handshake).any fun s =>
      s.Linked plain ∧ ∀ mv ∈ [Move.toServer 5 1, .toClient 6 1], s.IsStale mv) = true := by
    decide
  obtain ⟨s, hs, h⟩ := (Option.any_eq_true _ _).mp hrun
  obtain ⟨hl, hstale⟩ := of_decide_eq_true h
  exact ⟨s, hs, hl, intact_iff plain true true handshake hs hl hstale⟩

/-- The SYN comes to the server once more. -/
theorem not_intact_syn :
    ∃ s s', Runs.final (advance plain) (some (start true true)) handshake = some s ∧
      s.Linked plain ∧ s.IsStale (.toServer 5 0) ∧
      Runs.final (advance plain) (some s) [.toServer 5 0] = some s' ∧
      s'.server.kcpOf plain.clientAddr.toString = none ∧ ¬ s.Intact plain s' := by
  have hrun : ((Runs.final (advance plain) (some (start true true)) handshake).any fun s =>
      (s.Linked plain ∧ s.IsStale (.toServer 5 0)) ∧
        (Runs.final (advance plain) (some s) [.toServer 5 0]).any fun s' =>
          s'.server.kcpOf plain.clientAddr.toString = none) = true := by
    decide
  obtain ⟨s, hs, h⟩ := (Option.any_eq_true _ _).mp hrun
  obtain ⟨⟨hl, hstale⟩, h⟩ := of_decide_eq_true h
  obtain ⟨s', hs', h⟩ := (Option.any_eq_true _ _).mp h
  have hnone : s'.server.kcpOf plain.clientAddr.toString = none := of_decide_eq_true h
  refine ⟨s, s', hs, hl, hstale, hs', hnone, fun hi => ?_⟩
  obtain ⟨conv, k, k', -, hk'⟩ := hl
  cases hnone.symm.trans (hi.2.trans hk')

end Handshake

end KkLicode.Kcp
