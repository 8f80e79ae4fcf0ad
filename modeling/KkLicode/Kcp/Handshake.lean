import KkLicode.Base.Runs
import KkLicode.Kcp.Awaited

/-! A client and a server and the datagrams between them, which may be lost,
delivered twice and in any order. When the client's entry becomes linked, the LINK
behind it is of a time when the server's entry had been linked with the same
conversation and MTU. A server that is sent an ACK it does not wait for answers with
a LINK all the same; but it waits for every ACK it asked for until it is linked by it. -/

namespace KkLicode.Kcp

open Base CKKkcp

/-- Where the two nodes are. -/
structure Net where
  inetAddr : String → UInt32
  host : String
  port : ℤ
  clientIp : UInt32
  clientPort : UInt16

namespace Net

variable (net : Net)

def serverAddr : KKAddress := fromString net.inetAddr net.host net.port 0

def clientAddr : KKAddress := ⟨net.clientIp, net.clientPort, 0⟩

/-- A datagram comes to a node from an address. What a relay server would say is of no
concern to a node. -/
def deliver (n : CKKkcp) (now : ℕ) (source : KKAddress) (d : Datagram) : Option CKKkcp :=
  match d.body with
  | .control c =>
    n.step net.inetAddr (.control now source.ip source.port (d.relay.getD (0, 0)).1
      (d.relay.getD (0, 0)).2 c)
  | _ => some n

end Net

/-- The two nodes. `reached` has the conversations and MTUs with which the server's entry for
the client was linked so far, and `reachedAtSend` what that was when each of the datagrams
of the server was sent. -/
structure Handshake where
  client : CKKkcp
  server : CKKkcp
  reached : List (UInt32 × UInt16) := []
  reachedAtSend : List (List (UInt32 × UInt16)) := []

/-- A datagram that was sent is delivered by its number, as often as one likes. -/
inductive Move where
  | connect (now : ℕ)
  | command
  | clientPass (now : ℕ)
  | serverPass (now : ℕ)
  | toServer (now i : ℕ)
  | toClient (now i : ℕ)

namespace Handshake

variable (net : Net) (s : Handshake)

/-- Before the first step. -/
def start (clientHeart serverHeart : Bool) : Handshake :=
  { client := CKKkcp.start clientHeart, server := CKKkcp.start serverHeart }

/-- The server after a step. -/
def setServer (n : CKKkcp) : Handshake :=
  let reached := s.reached ++ (n.linkOf net.clientAddr.toString).toList
  { s with
    server := n
    reached := reached
    reachedAtSend := s.reachedAtSend ++
      List.replicate (n.sent.length - s.server.sent.length) reached }

def step : Move → Option Handshake
  | .connect now =>
    (s.client.step net.inetAddr (.connect now net.host net.port)).map fun n => { s with client := n }
  | .command => (s.client.step net.inetAddr .handleCmd).map fun n => { s with client := n }
  | .clientPass now =>
    (s.client.step net.inetAddr (.connMgrPass now)).map fun n => { s with client := n }
  | .serverPass now => (s.server.step net.inetAddr (.connMgrPass now)).map (s.setServer net)
  | .toServer now i =>
    match s.client.sent[i]? with
    | none => some s
    | some d => (net.deliver s.server now net.clientAddr d).map (s.setServer net)
  | .toClient now i =>
    match s.server.sent[i]? with
    | none => some s
    | some d => (net.deliver s.client now net.serverAddr d).map fun n => { s with client := n }

/-- A step of a run, which ends where a step has no result. -/
def advance (o : Option Handshake) (mv : Move) : Option Handshake × Unit :=
  (o.bind fun s => s.step net mv, ())

/-- If the client's entry becomes linked in the step, it is by a datagram that was sent no
earlier than the server's entry was linked with the same conversation and MTU. -/
def Agrees (mv : Move) : Prop :=
  ∀ s' ∈ s.step net mv, ∀ x ∈ s'.client.linkOf net.serverAddr.toString,
    s.client.linkOf net.serverAddr.toString ≠ some x →
    ∃ now i, mv = .toClient now i ∧ ∃ reached ∈ s.reachedAtSend[i]?, x ∈ reached

-- the members of an option are tried, not all pairs of words
instance Agrees.decidable (mv : Move) : Decidable (s.Agrees net mv) :=
  match mv with
  | .toClient now i =>
    haveI (s' : Handshake) : Decidable (∀ x ∈ s'.client.linkOf net.serverAddr.toString,
        s.client.linkOf net.serverAddr.toString ≠ some x →
        ∃ reached ∈ s.reachedAtSend[i]?, x ∈ reached) := Option.decidableForallMem _
    decidable_of_iff (∀ s' ∈ s.step net (.toClient now i),
        ∀ x ∈ s'.client.linkOf net.serverAddr.toString,
          s.client.linkOf net.serverAddr.toString ≠ some x →
          ∃ reached ∈ s.reachedAtSend[i]?, x ∈ reached)
      ⟨fun h s' hs x hx hne => ⟨now, i, rfl, h s' hs x hx hne⟩, fun h s' hs x hx hne => by
        obtain ⟨_, _, hmv, hr⟩ := h s' hs x hx hne
        cases hmv
        exact hr⟩
  | .connect _ | .command | .clientPass _ | .serverPass _ | .toServer .. =>
    haveI (s' : Handshake) : Decidable (∀ x ∈ s'.client.linkOf net.serverAddr.toString,
        s.client.linkOf net.serverAddr.toString = some x) := Option.decidableForallMem _
    decidable_of_iff (∀ s' ∈ s.step net _, ∀ x ∈ s'.client.linkOf net.serverAddr.toString,
        s.client.linkOf net.serverAddr.toString = some x)
      ⟨fun h s' hs x hx hne => absurd (h s' hs x hx) hne, fun h s' hs x hx => by
        by_contra hne
        obtain ⟨_, _, hmv, -⟩ := h s' hs x hx hne
        cases hmv⟩

/-! ### The invariant -/

/-- Both nodes keep to their roles. -/
structure Roles : Prop where
  client : Direct false s.client
  server : Direct true s.server

/-- The server's entry has been linked so, or it waits for the ACK that links it so. -/
def Promised (x : UInt32 × UInt16) : Prop :=
  x ∈ s.reached ∨ s.server.awaits net.clientAddr.toString = some x

/-- Every LINK the server sent is of a time when its entry had been linked as it says, and every
SYNACK and every ACK is promised. -/
structure Sound : Prop extends Roles s where
  named : Named s.server
  length : s.reachedAtSend.length = s.server.sent.length
  links : ∀ (i : ℕ) (d : Datagram) (c : Control) (reached : List (UInt32 × UInt16)),
    s.server.sent[i]? = some d → d.body = .control c → c.msgId = .link →
    s.reachedAtSend[i]? = some reached → (c.conv, c.mtu) ∈ reached
  synAcks : ∀ d ∈ s.server.sent, ∀ c, d.body = .control c → c.msgId = .synAck →
    s.Promised net (c.conv, c.mtu)
  acks : Acks (s.Promised net) s.client

variable {net s} {n : CKKkcp} {now i : ℕ} {mv : Move} {d : Datagram} {source : KKAddress}

theorem Sound.start (net : Net) (clientHeart serverHeart : Bool) :
    Sound net (start clientHeart serverHeart) where
  client := .start false clientHeart
  server := .start true serverHeart
  named := .start serverHeart
  length := rfl
  links _ _ _ _ h := nomatch h
  synAcks _ h := nomatch h
  acks := .start clientHeart

/-- What is delivered to a node is what its peer says. -/
theorem deliver_cases {server : Bool} {m : CKKkcp} (hm : Direct server m) (hd : d ∈ m.sent)
    {n' : CKKkcp} (h : net.deliver n now source d = some n') :
    n' = n ∨ ∃ c, d.body = .control c ∧ Allowed (!server) (.control now source.ip source.port 0 0 c) ∧
      n.step net.inetAddr (.control now source.ip source.port 0 0 c) = some n' := by
  obtain ⟨hrelay, hspeaks⟩ := hm.sent d hd
  unfold Net.deliver at h
  cases hb : d.body with
  | control c =>
    simp only [hb, hrelay] at h
    exact .inr ⟨c, rfl, ⟨rfl, rfl, by simpa using hspeaks c hb⟩, h⟩
  | _ =>
    simp only [hb] at h
    exact .inl (Option.some.inj h).symm

/-- A step is one of the client or one of the server, or something is delivered in vain. -/
theorem Roles.step_cases (h : Roles s) {s' : Handshake} (hs : s.step net mv = some s') :
    (∃ n, s' = { s with client := n } ∧
      (n = s.client ∨ ∃ e, Allowed false e ∧ s.client.step net.inetAddr e = some n)) ∨
    ∃ n, s' = s.setServer net n ∧
      (n = s.server ∨ ∃ e, Allowed true e ∧ s.server.step net.inetAddr e = some n) := by
  cases mv with
  | connect now =>
    obtain ⟨n, hn, rfl⟩ := Option.map_eq_some_iff.mp hs
    exact .inl ⟨n, rfl, .inr ⟨.connect now net.host net.port, rfl, hn⟩⟩
  | command =>
    obtain rfl : { s with client := s.client.handleCmd } = s' := Option.some.inj hs
    exact .inl ⟨_, rfl, .inr ⟨.handleCmd, rfl, rfl⟩⟩
  | clientPass now =>
    obtain ⟨n, hn, rfl⟩ := Option.map_eq_some_iff.mp hs
    exact .inl ⟨n, rfl, .inr ⟨.connMgrPass now, trivial, hn⟩⟩
  | serverPass now =>
    obtain ⟨n, hn, rfl⟩ := Option.map_eq_some_iff.mp hs
    exact .inr ⟨n, rfl, .inr ⟨.connMgrPass now, trivial, hn⟩⟩
  | toServer now i =>
    rw [Handshake.step] at hs
    split at hs
    · exact .inl ⟨s.client, (Option.some.inj hs).symm, .inl rfl⟩
    · next d hd =>
      obtain ⟨n, hn, rfl⟩ := Option.map_eq_some_iff.mp hs
      refine .inr ⟨n, rfl, ?_⟩
      exact (deliver_cases h.client (List.mem_of_getElem? hd) hn).imp_right fun ⟨_, _, ha, hc⟩ =>
        ⟨_, ha, hc⟩
  | toClient now i =>
    rw [Handshake.step] at hs
    split at hs
    · exact .inl ⟨s.client, (Option.some.inj hs).symm, .inl rfl⟩
    · next d hd =>
      obtain ⟨n, hn, rfl⟩ := Option.map_eq_some_iff.mp hs
      refine .inl ⟨n, rfl, ?_⟩
      exact (deliver_cases h.server (List.mem_of_getElem? hd) hn).imp_right fun ⟨_, _, ha, hc⟩ =>
        ⟨_, ha, hc⟩

theorem Roles.step (h : Roles s) {s' : Handshake} (hs : s.step net mv = some s') : Roles s' := by
  rcases h.step_cases hs with ⟨n, rfl, rfl | ⟨e, ha, hn⟩⟩ | ⟨n, rfl, rfl | ⟨e, ha, hn⟩⟩
  · exact h
  · exact ⟨h.client.step ha hn, h.server⟩
  · exact ⟨h.client, h.server⟩
  · exact ⟨h.client, h.server.step ha hn⟩

/-- What the server says in a step to `n` that is true and promised. -/
def Keeps (net : Net) (s : Handshake) (n : CKKkcp) (l : Control) : Prop :=
  (l.msgId = .synAck → n.awaits net.clientAddr.toString = some (l.conv, l.mtu)) ∧
  (l.msgId = .link → (l.conv, l.mtu) ∈ s.reached ∨
    n.linkOf net.clientAddr.toString = some (l.conv, l.mtu))

/-- What was reached stays so, and what is linked now is reached, too. -/
theorem Promised.setServer {x : UInt32 × UInt16} (h : s.Promised net x)
    (hwait : ∀ x, s.server.awaits net.clientAddr.toString = some x →
      n.awaits net.clientAddr.toString = some x ∨ n.linkOf net.clientAddr.toString = some x) :
    (s.setServer net n).Promised net x := by
  rcases h with h | h
  · exact .inl (List.mem_append_left _ h)
  · rcases hwait x h with h | h
    · exact .inr h
    · exact .inl (List.mem_append_right _ (by rw [h]; exact List.mem_singleton_self _))

/-- A server step that says what is true. -/
theorem Sound.setServer (h : Sound net s) (hn : Direct true n) (hnamed : Named n)
    (hwait : ∀ x, s.server.awaits net.clientAddr.toString = some x →
      n.awaits net.clientAddr.toString = some x ∨ n.linkOf net.clientAddr.toString = some x)
    (hsends : Sends s.server n (Keeps net s n)) : Sound net (s.setServer net n) := by
  obtain ⟨ds, hds, htrue⟩ := hsends
  have hnew : n.sent.length - s.server.sent.length = ds.length := by
    rw [hds, List.length_append, Nat.add_sub_cancel_left]
  refine ⟨⟨h.client, hn⟩, hnamed, ?_, fun i d c reached hd hb hl hr => ?_, fun d hd c hb hs => ?_,
    h.acks.imp fun x hx => hx.setServer hwait⟩
  · show (s.reachedAtSend ++ List.replicate _ _).length = n.sent.length
    rw [List.length_append, List.length_replicate, h.length, hnew, hds, List.length_append]
  · have hd : n.sent[i]? = some d := hd
    have hr : (s.reachedAtSend ++ List.replicate (n.sent.length - s.server.sent.length)
      (s.reached ++ (n.linkOf net.clientAddr.toString).toList))[i]? = some reached := hr
    rw [hds] at hd
    by_cases hi : i < s.server.sent.length
    · rw [List.getElem?_append_left hi] at hd
      rw [List.getElem?_append_left (h.length ▸ hi)] at hr
      exact h.links i d c reached hd hb hl hr
    · rw [List.getElem?_append_right (not_lt.mp hi)] at hd
      rw [List.getElem?_append_right (h.length ▸ not_lt.mp hi), List.getElem?_replicate] at hr
      split_ifs at hr
      obtain rfl := Option.some.inj hr
      rcases (htrue d (List.mem_of_getElem? hd) c hb).2 hl with hc | hc
      · exact List.mem_append_left _ hc
      · exact List.mem_append_right _ (by rw [hc]; exact List.mem_singleton_self _)
  · have hd : d ∈ n.sent := hd
    rw [hds] at hd
    rcases List.mem_append.mp hd with hd | hd
    · exact (h.synAcks d hd c hb hs).setServer hwait
    · exact .inr ((htrue d hd c hb).1 hs)

theorem Sound.setClient (h : Sound net s) (hn : Direct false n) (ha : Acks (s.Promised net) n) :
    Sound net { s with client := n } :=
  ⟨⟨hn, h.server⟩, h.named, h.length, h.links, h.synAcks, ha⟩

/-- The answer to an ACK the server waits for is a true LINK. -/
theorem linkOf_onAck {n n' : CKKkcp} {now : ℕ} {c : Control} {addr : KKAddress} {info : KcpInfo}
    (hi : info ∈ n.entry addr.toString) (ha : Accepts info c)
    (h : n.onAck now c 0 0 addr = some n') :
    n'.linkOf addr.toString = some (c.conv, c.mtu) := by
  obtain ⟨p, hp, hi⟩ := Option.bind_eq_some_iff.mp hi
  obtain ⟨hstate, hconv, hmtu⟩ := ha
  have hk : n.conIPInfoMap.key1Find (senderKey 0 addr) = some p := hp
  rw [onAck_eq_match hk hi ⟨hstate, hconv, hmtu⟩] at h
  cases h
  refine linkOf_eq_some.mpr ⟨p, _, hp, openKcp_heap_self n (senderKey 0 addr) p { info with
    state := .link, sendtick := now }, ?_⟩
  rw [← hconv, ← hmtu]
  rfl

/-- What the server answers the client is true. -/
theorem Sound.keeps (h : Sound net s) (hd : d ∈ s.client.sent) {c : Control}
    (hb : d.body = .control c)
    (hn : s.server.onConHandle now c 0 0 net.clientAddr = some n) :
    Sends s.server n (Keeps net s n) := by
  obtain ⟨ds, hds, hanswers⟩ := onConHandle_sends hn
  refine ⟨ds, hds, fun d' hd' l hl => ⟨fun hs => ?_, fun hlink => ?_⟩⟩
  · obtain ⟨hsyn, hx⟩ := (hanswers d' hd' l hl).synAck hs
    simp only [onConHandle, hsyn] at hn
    rw [hx]
    exact (onSyn_awaits h.named hn).2
  · obtain ⟨hack, hx⟩ := (hanswers d' hd' l hl).link hlink
    simp only [onConHandle, hack] at hn
    rw [hx]
    refine (h.acks.sent d hd c hb hack).imp_right fun hwait => ?_
    obtain ⟨info, hi, haccepts⟩ := accepts_of_awaits hwait
    exact linkOf_onAck hi haccepts hn

theorem Sound.toServer (h : Sound net s) (hd : s.client.sent[i]? = some d)
    (hn : net.deliver s.server now net.clientAddr d = some n) : Sound net (s.setServer net n) := by
  rcases deliver_cases h.client (List.mem_of_getElem? hd) hn with rfl | ⟨c, hb, hallowed, hstep⟩
  · exact h.setServer h.server h.named (fun x hx => .inl hx) (.silent rfl)
  · have hadr : s.server.adr net.clientAddr.ip net.clientAddr.port = net.clientAddr := by
      unfold CKKkcp.adr
      rw [h.server.adr]
      rfl
    have hon : s.server.onConHandle now c 0 0 net.clientAddr = some n := by
      rw [← hadr]
      exact hstep
    have hrenders : s.server.Renders net.inetAddr
        (.control now net.clientAddr.ip net.clientAddr.port 0 0 c) := trivial
    exact h.setServer (h.server.step hallowed hstep) (h.named.step hrenders hstep)
      (fun x hx => step_awaits h.named hallowed hstep hx) (h.keeps (List.mem_of_getElem? hd) hb hon)

theorem Sound.toClient (h : Sound net s) (hd : s.server.sent[i]? = some d)
    (hn : net.deliver s.client now net.serverAddr d = some n) :
    Sound net { s with client := n } := by
  have hmem := List.mem_of_getElem? hd
  rcases deliver_cases h.server hmem hn with rfl | ⟨c, hb, hallowed, hstep⟩
  · exact h.setClient h.client h.acks
  · exact h.setClient (h.client.step hallowed hstep)
      (h.acks.onConHandle hallowed.2.2 (fun hs => h.synAcks d hmem c hb hs) hstep)

theorem Sound.step (h : Sound net s) {s' : Handshake} (hs : s.step net mv = some s') :
    Sound net s' := by
  cases mv with
  | connect now =>
    obtain ⟨n, hn, rfl⟩ := Option.map_eq_some_iff.mp hs
    exact h.setClient (h.client.connect hn) (h.acks.connect hn)
  | command =>
    obtain rfl : { s with client := s.client.handleCmd } = s' := Option.some.inj hs
    exact h.setClient h.client.handleCmd h.acks.handleCmd
  | clientPass now =>
    obtain ⟨n, hn, rfl⟩ := Option.map_eq_some_iff.mp hs
    exact h.setClient (h.client.connMgrPass hn) (h.acks.connMgrPass hn)
  | serverPass now =>
    obtain ⟨n, hn, rfl⟩ := Option.map_eq_some_iff.mp hs
    obtain ⟨ds, hds, hquiet⟩ := connMgrPass_sends hn
    have hnamed := @Named.step net.inetAddr s.server n (.connMgrPass now) h.named trivial hn
    refine h.setServer (h.server.connMgrPass hn) hnamed (fun x hx => .inl (connMgrPass_awaits h.named hn _ x hx))
      ⟨ds, hds, fun d hd l hl => ?_⟩
    obtain ⟨hsyn, hlink⟩ := hquiet d hd l hl
    exact ⟨fun h => absurd h hsyn, fun h => absurd h hlink⟩
  | toServer now i =>
    rw [Handshake.step] at hs
    split at hs
    · exact Option.some.inj hs ▸ h
    · next d hd =>
      obtain ⟨n, hn, rfl⟩ := Option.map_eq_some_iff.mp hs
      exact h.toServer hd hn
  | toClient now i =>
    rw [Handshake.step] at hs
    split at hs
    · exact Option.some.inj hs ▸ h
    · next d hd =>
      obtain ⟨n, hn, rfl⟩ := Option.map_eq_some_iff.mp hs
      exact h.toClient hd hn

/-- The client's entry becomes linked by a LINK of the server, which was true when it was sent. -/
theorem Sound.agrees (h : Sound net s) (mv : Move) : s.Agrees net mv := by
  intro s' hs x hx hne
  have hkeep {n : CKKkcp} (hl : LinksAs s.client n fun _ => False)
      (hx : n.linkOf net.serverAddr.toString = some x) : False :=
    (hl _ x hx).elim hne id
  cases mv with
  | connect now =>
    obtain ⟨n, hn, rfl⟩ := Option.map_eq_some_iff.mp hs
    exact (hkeep (connect_linksAs hn) hx).elim
  | command =>
    obtain rfl : { s with client := s.client.handleCmd } = s' := Option.some.inj hs
    exact (hkeep (.same (.refl _) (handleCmd_sameTable _)) hx).elim
  | clientPass now =>
    obtain ⟨n, hn, rfl⟩ := Option.map_eq_some_iff.mp hs
    exact (hkeep (connMgrPass_linksAs hn) hx).elim
  | serverPass now =>
    obtain ⟨n, hn, rfl⟩ := Option.map_eq_some_iff.mp hs
    exact (hne hx).elim
  | toServer now i =>
    rw [Option.mem_def, Handshake.step] at hs
    split at hs
    · exact (hne (Option.some.inj hs ▸ hx)).elim
    · obtain ⟨n, hn, rfl⟩ := Option.map_eq_some_iff.mp hs
      exact (hne hx).elim
  | toClient now i =>
    refine ⟨now, i, rfl, ?_⟩
    rw [Option.mem_def, Handshake.step] at hs
    split at hs
    · exact (hne (Option.some.inj hs ▸ hx)).elim
    · next d hd =>
      obtain ⟨n, hn, rfl⟩ := Option.map_eq_some_iff.mp hs
      rcases deliver_cases h.server (List.mem_of_getElem? hd) hn with rfl | ⟨c, hb, hallowed, hstep⟩
      · exact (hne hx).elim
      · obtain ⟨-, -, -, -, hack⟩ := hallowed
        rcases (onConHandle_linksAs hstep _ x hx).resolve_left hne with hc | ⟨hl, rfl⟩
        · exact absurd hc hack
        · have hlt : i < s.reachedAtSend.length := by
            rw [h.length]
            exact (List.getElem?_eq_some_iff.mp hd).1
          exact ⟨_, List.getElem?_eq_getElem hlt,
            h.links i d c _ hd hb hl (List.getElem?_eq_getElem hlt)⟩

/-- In every run the client's entry becomes linked only after the server's entry was linked
alike. -/
theorem agrees_run (net : Net) (clientHeart serverHeart : Bool) (moves : List Move) :
    Runs.Steps (advance net) (fun o mv => ∀ s ∈ o, s.Agrees net mv)
      (some (start clientHeart serverHeart)) moves := by
  refine Runs.Steps.imp_of_invariant (P := fun o => ∀ s ∈ o, Sound net s) ?_ ?_ ?_
    (Runs.steps_true _ moves)
  · intro o mv hsound _ s' hs'
    obtain ⟨s, hs, hstep⟩ := Option.bind_eq_some_iff.mp hs'
    exact (hsound s hs).step hstep
  · exact fun o mv hsound _ s hs => (hsound s hs).agrees mv
  · rintro s ⟨⟩
    exact .start net clientHeart serverHeart

/-- Between hosts that are not otherwise connected. -/
def plain : Net where
  inetAddr _ := 0x0A000001
  host := "10.0.0.1"
  port := 8000
  clientIp := 0x0A000002
  clientPort := 9000

/-- The SYNACK is delivered twice, so two ACKs come to the server: the first links its entry, the
second is answered all the same. -/
example : (Runs.final (advance plain) (some (start true true))
    [.connect 0, .command, .toServer 1 0, .toClient 2 0, .toClient 3 0, .toServer 4 1, .toServer 5 2,
      .toClient 6 2]).any (fun s =>
        s.reached = [(101, 1430), (101, 1430)] ∧
        s.client.linkOf plain.serverAddr.toString = some (101, 1430)) = true := by decide

end Handshake

end KkLicode.Kcp
