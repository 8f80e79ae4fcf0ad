import KkLicode.Kcp.Forwarding
import KkLicode.Kcp.OnBufHandle
import KkLicode.Kcp.OwnEntry

/-! The receive loop of a node. A datagram is handled to its end if it is read inside
of the buffer, a SYNACK or an ACK comes from a sender with an entry, a SYN replaces
no entry without a control block, and the table leads to records that are there. -/

namespace KkLicode.Kcp

open Base

/-- A node with the buffer its datagrams are received into. -/
structure Receiver where
  node : CKKkcp
  recBuf : RecBuf

/-- What a node does on its own. -/
def Event.Own : Event → Prop
  | .control .. | .tranId .. | .kcp .. => False
  | _ => True

inductive NodeEvent where
  | own (e : {e : Event // e.Own})
  | datagram (now : ℕ) (ip : UInt32) (port : UInt16) (data : List UInt8)

/-- What the node is given to do with a message. -/
def Message.event (now : ℕ) (ip : UInt32) (port : UInt16) : Message → Option Event
  | .control nTranId nDestTranId c => some (.control now ip port nTranId nDestTranId c)
  | .kcp nTranId nDestTranId _ => some (.kcp now ip port nTranId nDestTranId)
  | .tranId id => id.map (.tranId now ip port)
  | .udpData | .none => Option.none

namespace Receiver

variable (m : DataModel) (inetAddr : String → UInt32)

def start (automaticHeart : Bool) (recBuf : RecBuf) : Receiver := ⟨.start automaticHeart, recBuf⟩

/-- The message in the buffer when a datagram was received. -/
def message (r : Receiver) (data : List UInt8) : Option Message :=
  readMessage m (r.recBuf.receive data).bytes (.ofNat (min data.length bufLen)) 0 0

/-- One turn of `HandleRecUdp`, and what happens between two. -/
def step (r : Receiver) : NodeEvent → Option Receiver
  | .own e => (r.node.step inetAddr e).map fun n => { r with node := n }
  | .datagram now ip port data =>
    let buf := r.recBuf.receive data
    if data = [] then some { r with recBuf := buf }
    else (r.node.onBufHandle m now buf.bytes (.ofNat (min data.length bufLen)) 0 0
      (r.node.adr ip port)).map fun n => ⟨n, buf⟩

def advance (r : Option Receiver) (e : NodeEvent) : Option Receiver × Unit :=
  (r.bind fun r => r.step m inetAddr e, ())

/-- A datagram is handled to its end. -/
def Returns (r : Receiver) : NodeEvent → Prop
  | .own _ => True
  | e => (r.step m inetAddr e).isSome

/-- The calls and the handshake messages file what they add where it is found again. -/
def Files (r : Receiver) : NodeEvent → Prop
  | .own e => r.node.Files inetAddr e
  | .datagram now ip port data => data ≠ [] → ∀ msg ∈ r.message m data, ∀ e ∈ msg.event now ip port,
      r.node.Files inetAddr e

instance Files.decidable (r : Receiver) : ∀ e, Decidable (r.Files m inetAddr e)
  | .own e => CKKkcp.Files.decidable r.node e
  | .datagram now ip port data => inferInstanceAs (Decidable (data ≠ [] →
      ∀ msg ∈ r.message m data, ∀ e ∈ msg.event now ip port, r.node.Files inetAddr e))

end Receiver

namespace CKKkcp

/-- Every record under the key has a control block, without which it cannot be freed. -/
def Freeable (n : CKKkcp) (k : String) : Prop :=
  ∀ p ∈ n.conIPInfoMap.key1Find k, ∀ info ∈ n.heap p, info.kcp.isSome

instance Freeable.decidable (n : CKKkcp) (k : String) : Decidable (n.Freeable k) :=
  inferInstanceAs (Decidable (∀ p ∈ n.conIPInfoMap.key1Find k, ∀ info ∈ n.heap p, info.kcp.isSome))

/-- A SYNACK or an ACK has an entry, the entry that a SYN replaces has a control block, and what is
looked at for an entry lies in the buffer. -/
def Ready (n : CKKkcp) (adr : KKAddress) : Message → Prop
  | .control s _ c =>
    (c.msgId = .synAck ∨ c.msgId = .ack → (n.conIPInfoMap.key1Find (senderKey s adr)).isSome) ∧
      (c.msgId = .syn → n.Freeable (senderKey s adr))
  | .kcp s _ whole => whole ∨
      ∀ p ∈ n.conIPInfoMap.key1Find (senderKey s adr), ∀ info ∈ n.heap p, info.kcp = none
  | .tranId id => id.isSome ∨ n.conIPInfoMap.key1Find adr.toString = none
  | _ => True

instance Ready.decidable (n : CKKkcp) (adr : KKAddress) : ∀ msg, Decidable (n.Ready adr msg)
  | .control s _ c => inferInstanceAs (Decidable
      ((c.msgId = .synAck ∨ c.msgId = .ack → (n.conIPInfoMap.key1Find (senderKey s adr)).isSome) ∧
        (c.msgId = .syn → n.Freeable (senderKey s adr))))
  | .kcp s _ whole => inferInstanceAs (Decidable (whole ∨
      ∀ p ∈ n.conIPInfoMap.key1Find (senderKey s adr), ∀ info ∈ n.heap p, info.kcp = none))
  | .tranId id =>
    inferInstanceAs (Decidable (id.isSome ∨ n.conIPInfoMap.key1Find adr.toString = none))
  | .udpData | .none => isTrue trivial

variable {inetAddr : String → UInt32} {n n' : CKKkcp} {now p : ℕ} {c : Control} {s d : UInt32}
  {adr : KKAddress} {k : String} {msg : Message}

namespace Filed

/-- An entry has a record. -/
theorem heap_isSome (h : Filed n) (hp : n.conIPInfoMap.key1Find k = some p) :
    ∃ info, n.heap p = some info := (h.record k p hp).imp fun _ hi => hi.1

theorem freeAt_isSome_iff (h : Filed n) (k : String) : (n.freeAt k).isSome ↔ n.Freeable k := by
  unfold CKKkcp.freeAt Freeable
  cases hp : n.conIPInfoMap.key1Find k with
  | none => simp
  | some p =>
    obtain ⟨info, hi⟩ := h.heap_isSome hp
    simp [freeKcpInfo_eq hi, hi]

/-- Only a record without a control block is in the way of a SYN. -/
theorem onSyn_isSome_iff (h : Filed n) :
    (n.onSyn now c s d adr).isSome ↔ n.Freeable (senderKey s adr) := by
  have hstart : Filed (n.synStart c s adr) := h.same ⟨rfl, rfl, rfl⟩
  have hfree := hstart.freeAt_isSome_iff (senderKey s adr)
  have hs : n.onSyn now c s d adr =
      ((n.synStart c s adr).freeAt (synAddr s adr).toString).bind _ := rfl
  rw [hs, synAddr_toString]
  refine Iff.trans ?_ hfree
  cases (n.synStart c s adr).freeAt (senderKey s adr) <;> rfl

/-- Only the entry of the sender is missing to a SYNACK. -/
theorem onSynAck_isSome_iff (h : Filed n) : (n.onSynAck now c s adr).isSome ↔
    (n.conIPInfoMap.key1Find (senderKey s adr)).isSome := by
  cases hp : n.conIPInfoMap.key1Find (senderKey s adr) with
  | none => simp [onSynAck, hp]
  | some p =>
    obtain ⟨info, hi⟩ := h.heap_isSome hp
    simp [onSynAck_eq hp hi]

theorem onAck_isSome_iff (h : Filed n) : (n.onAck now c s d adr).isSome ↔
    (n.conIPInfoMap.key1Find (senderKey s adr)).isSome := by
  cases hp : n.conIPInfoMap.key1Find (senderKey s adr) with
  | none => simp [onAck, hp]
  | some p =>
    obtain ⟨info, hi⟩ := h.heap_isSome hp
    by_cases hm : info.state = .synAck ∧ info.conv = c.conv ∧ info.mtu = c.mtu
    · simp [onAck_eq_match hp hi hm]
    · simp [onAck_eq_other hp hi hm]

theorem onLink_isSome (h : Filed n) : (n.onLink now c s adr).isSome := by
  unfold onLink
  split
  · rfl
  · next p hp =>
    obtain ⟨info, hi⟩ := h.heap_isSome hp
    simp only [hi, Option.bind_eq_bind, Option.bind_some]
    split_ifs <;> rfl

theorem onKcpHeart_isSome (h : Filed n) : (n.onKcpHeart now c adr).isSome := by
  unfold onKcpHeart
  split
  · rfl
  · next p hp =>
    obtain ⟨info, hi⟩ := Option.isSome_iff_exists.mp (h.live.key2 c.conv p hp)
    simp [hi]

theorem onDisConnect_isSome (h : Filed n) : (n.onDisConnect adr).isSome := by
  unfold onDisConnect
  split
  · rfl
  · next p hp =>
    obtain ⟨info, hi⟩ := h.heap_isSome hp
    simp [hi]

/-- No entry has the empty key. -/
theorem onKckLost_isSome (h : Filed n) : (n.onKckLost adr).isSome := by
  unfold onKckLost
  split
  · rfl
  · next p hp =>
    obtain ⟨info, hi⟩ := h.heap_isSome hp
    exact absurd (h.toNamed.key_eq hp hi) (KKAddress.toString2_ne_empty _ _)

theorem onConHandle_isSome_iff (h : Filed n) : (n.onConHandle now c s d adr).isSome ↔
    n.Ready adr (.control s d c) := by
  unfold onConHandle Ready
  cases hc : c.msgId <;> simp only [hc, reduceCtorEq, or_false, false_or, or_self,
    true_imp_iff, false_imp_iff, iff_true, and_true, true_and]
  case disConnect => exact h.onDisConnect_isSome
  case syn => exact h.onSyn_isSome_iff
  case synAck => exact h.onSynAck_isSome_iff
  case ack => exact h.onAck_isSome_iff
  case link => exact h.onLink_isSome
  case kcpHeart => exact h.onKcpHeart_isSome
  case kckLost => exact h.onKckLost_isSome
  all_goals rfl

theorem onTranId_isSome (h : Filed n) {id : UInt32} : (n.onTranId now id adr).isSome := by
  unfold onTranId
  split
  · rfl
  · next p hp =>
    obtain ⟨info, hi⟩ := h.heap_isSome hp
    simp [hi]

theorem onKcp_isSome (h : Filed n) : (n.onKcp now s d adr).isSome := by
  unfold onKcp
  split
  · rfl
  · next p hp =>
    obtain ⟨info, hi⟩ := h.heap_isSome hp
    simp [hi]

theorem onMessage_isSome_iff (h : Filed n) :
    (n.onMessage now adr msg).isSome ↔ n.Ready adr msg := by
  cases msg with
  | control s d c => exact h.onConHandle_isSome_iff
  | kcp s d whole =>
    unfold onMessage Ready
    dsimp only
    cases hp : n.conIPInfoMap.key1Find (senderKey s adr) with
    | none => exact iff_of_true h.onKcp_isSome (.inr (by simp))
    | some p =>
      obtain ⟨info, hi⟩ := h.heap_isSome hp
      simp only [hi, Option.bind_eq_bind, Option.bind_some, Option.mem_def, Option.some.injEq,
        forall_eq']
      split_ifs with hw
      · obtain ⟨hkcp, hw⟩ := hw
        refine iff_of_false (by simp) ?_
        rintro (hw' | hnone)
        · simp [hw'] at hw
        · simp [hnone] at hkcp
      · refine iff_of_true h.onKcp_isSome ?_
        by_contra hn
        push Not at hn
        exact hw ⟨Option.isSome_iff_ne_none.mpr hn.2, by simpa using hn.1⟩
  | tranId id =>
    unfold onMessage Ready
    cases hp : n.conIPInfoMap.key1Find adr.toString with
    | none => simp
    | some p =>
      cases id with
      | none => simp
      | some id => simpa using h.onTranId_isSome
  | udpData => exact iff_of_true rfl trivial
  | none => exact iff_of_true rfl trivial

end Filed

/-- What is done for a message is a step of the node, or leaves the table alone. -/
theorem onMessage_cases {ip : UInt32} {port : UInt16}
    (h : n.onMessage now (n.adr ip port) msg = some n') :
    SameTable n n' ∨ ∃ e ∈ msg.event now ip port, n.step inetAddr e = some n' := by
  cases msg with
  | control s d c => exact .inr ⟨_, rfl, h⟩
  | kcp s d whole =>
    refine .inr ⟨_, rfl, ?_⟩
    unfold onMessage at h
    dsimp only at h
    split at h
    · exact h
    · obtain ⟨info, -, h⟩ := Option.bind_eq_some_iff.mp h
      split_ifs at h
      exact h
  | tranId id =>
    unfold onMessage at h
    dsimp only at h
    split at h
    · exact .inl (Option.some.inj h ▸ .refl n)
    · cases h
    · exact .inr ⟨_, rfl, h⟩
  | udpData => exact .inl (Option.some.inj h ▸ ⟨rfl, rfl, rfl⟩)
  | none => exact .inl (Option.some.inj h ▸ .refl n)

end CKKkcp

namespace Receiver

variable {m : DataModel} {inetAddr : String → UInt32} {r r' : Receiver} {e : NodeEvent}

/-- The message of a datagram is read inside of the buffer, and is one the node is ready for. -/
def Ready (m : DataModel) (r : Receiver) : NodeEvent → Prop
  | .own _ => True
  | .datagram _ ip port data => data ≠ [] →
      ∃ msg ∈ r.message m data, r.node.Ready (r.node.adr ip port) msg

instance Ready.decidable (r : Receiver) : ∀ e, Decidable (r.Ready m e)
  | .own _ => isTrue trivial
  | .datagram _ ip port data => inferInstanceAs (Decidable (data ≠ [] →
      ∃ msg ∈ r.message m data, r.node.Ready (r.node.adr ip port) msg))

theorem returns_iff (h : r.node.Filed) : r.Returns m inetAddr e ↔ r.Ready m e := by
  cases e with
  | own e => exact Iff.rfl
  | datagram now ip port data =>
    unfold Returns Ready
    by_cases hd : data = []
    · simp [step, hd]
    · simp only [step, hd, if_false, Option.isSome_map, ne_eq, not_false_eq_true, true_imp_iff]
      unfold CKKkcp.onBufHandle
      show ((r.message m data).bind _).isSome ↔ _
      cases hm : r.message m data with
      | none => simp
      | some msg => simpa using h.onMessage_isSome_iff

theorem filed_step (h : r.node.Filed) (hf : r.Files m inetAddr e) (hs : r.step m inetAddr e = some r') :
    r'.node.Filed := by
  cases e with
  | own e =>
    obtain ⟨n, hn, rfl⟩ := Option.map_eq_some_iff.mp hs
    exact h.step hf.1 hf.2 hn
  | datagram now ip port data =>
    unfold step at hs
    dsimp only at hs
    split_ifs at hs with hd
    · cases hs
      exact h
    · obtain ⟨n, hn, rfl⟩ := Option.map_eq_some_iff.mp hs
      obtain ⟨msg, hmsg, hn⟩ := Option.bind_eq_some_iff.mp hn
      rcases CKKkcp.onMessage_cases hn with hsame | ⟨e, he, hn⟩
      · exact h.same hsame
      · obtain ⟨hr, hf⟩ := hf hd msg hmsg e he
        exact h.step hr hf hn

/-- A node connects and its peer answers; then it is called itself, twice by the same client. -/
def answered : List NodeEvent :=
  [.own ⟨.connect 0 "10.0.0.1" 8000, trivial⟩, .own ⟨.handleCmd, trivial⟩,
   .datagram 1 0x0A000001 8000 (putsynack 101 1436).bytes,
   .datagram 2 0x0A000001 8000 (putlink 101 1436).bytes,
   .datagram 3 0x0A000002 9000 (putsyn 101 0).bytes,
   .datagram 4 0x0A000002 9000 (putack 102 1430).bytes,
   .datagram 5 0x0A000002 9000 (putsyn 101 0).bytes]

end Receiver

end KkLicode.Kcp
