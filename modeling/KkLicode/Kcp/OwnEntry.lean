import KkLicode.Base.Decimal
import KkLicode.Kcp.ConTable

/-! The entry a datagram acts on. It should be the one for the address it came from
and for the relay id it came from, if any. A SYN that was relayed leaves its id in
the address object all datagrams are received with, so what a later direct datagram
is looked up under depends on who was there before. -/

namespace KkLicode.Kcp

open Base

/-! ### Keys -/

theorem toList_toString_int (z : ℤ) : (toString z).toList =
    if z < 0 then '-' :: Nat.toDigits 10 z.natAbs else Nat.toDigits 10 z.natAbs := by
  cases z with
  | ofNat m =>
    have h : toString (Int.ofNat m) = m.repr := rfl
    rw [h, Nat.toList_repr, if_neg (by simp)]
    rfl
  | negSucc m =>
    have h : toString (Int.negSucc m) = "-" ++ (m + 1).repr := rfl
    rw [h, String.toList_append, Nat.toList_repr, if_pos (Int.negSucc_lt_zero m)]
    rfl

theorem itoa_inj {a b : UInt32} (h : itoa a = itoa b) : a = b := by
  have hl := congrArg String.toList h
  have hminus (n : ℕ) (l : List Char) : Nat.toDigits 10 n ≠ '-' :: l := fun hn =>
    Decimal.notMem_toDigits (by decide) (hn ▸ List.mem_cons_self : '-' ∈ Nat.toDigits 10 n)
  have hz : a.toInt32.toInt = b.toInt32.toInt := by
    simp only [itoa, toList_toString_int] at hl
    split_ifs at hl with ha hb hb
    · have := Decimal.toDigits_inj.mp (List.cons.inj hl).2
      omega
    · exact absurd hl.symm (hminus _ _)
    · exact absurd hl (hminus _ _)
    · have := Decimal.toDigits_inj.mp hl
      omega
  have h32 := Int32.toInt_inj.mp hz
  rw [← UInt32.toUInt32_toInt32 a, h32, UInt32.toUInt32_toInt32]

namespace KKAddress

/-- An address renders differently for different relay ids. -/
theorem toString2_inj {a : KKAddress} {s t : UInt32} : a.toString2 s = a.toString2 t ↔ s = t := by
  refine ⟨fun h => ?_, fun h => h ▸ rfl⟩
  have hl := congrArg String.toList h
  have hzero {u : UInt32} (hu : ¬ u > 0) : u = 0 := UInt32.le_zero_iff.mp (not_lt.mp hu)
  simp only [toString2, String.toList_append, List.append_cancel_left_eq] at hl
  split_ifs at hl with hs ht ht
  · rw [String.toList_append, String.toList_append, List.append_cancel_left_eq] at hl
    exact itoa_inj (String.toList_inj.mp hl)
  · simp at hl
  · simp at hl
  · rw [hzero hs, hzero ht]

theorem toString2_ne_empty (a : KKAddress) (s : UInt32) : a.toString2 s ≠ "" := by
  intro h
  have hl := congrArg String.toList h
  simp [toString2] at hl

end KKAddress

namespace CKKkcp

/-- The entry of the sender of a datagram: its address and, if it is relayed, the id it came from. -/
def ownKey : Event → Option String
  | .control _ ip port nTranId _ c =>
    match c.msgId with
    | .syn | .synAck | .ack | .link | .disConnect | .kckLost =>
      some (KKAddress.toString2 ⟨ip, port, 0⟩ nTranId)
    | _ => none
  | .kcp _ ip port nTranId _ => some (KKAddress.toString2 ⟨ip, port, 0⟩ nTranId)
  | _ => none

/-- The key the handler looks the sender up under. -/
def lookedUp (n : CKKkcp) : Event → Option String
  | .control _ ip port nTranId _ c =>
    match c.msgId with
    | .syn => some (synAddr nTranId (n.adr ip port)).toString
    | .synAck | .ack | .link => some (senderKey nTranId (n.adr ip port))
    | .disConnect => some (n.adr ip port).toString
    | .kckLost => some ""
    | _ => none
  | .kcp _ ip port nTranId _ => some (senderKey nTranId (n.adr ip port))
  | _ => none

/-- The entry under a key is what it was, and so is its record. -/
def Untouched (n n' : CKKkcp) (j : String) : Prop :=
  n'.conIPInfoMap.key1Find j = n.conIPInfoMap.key1Find j ∧
    ∀ p ∈ n.conIPInfoMap.key1Find j, n'.heap p = n.heap p

/-- A datagram is looked up as its sender's, and no entry but the sender's is created, changed
or freed. -/
structure ActsOnOwn (inetAddr : String → UInt32) (n : CKKkcp) (e : Event) : Prop where
  key : n.lookedUp e = ownKey e
  others : ∀ n', n.step inetAddr e = some n' → ∀ k ∈ ownKey e, ∀ j ≠ k, Untouched n n' j

/-- A direct datagram comes before any SYN was relayed, a relayed disconnect comes from where the
last relayed SYN came from, and there is no link-lost message. -/
def OwnKeyed (n : CKKkcp) : Event → Prop
  | .control _ _ _ nTranId _ c =>
    (c.msgId = .syn ∨ c.msgId = .synAck ∨ c.msgId = .ack ∨ c.msgId = .link → nTranId = 0 →
      n.adrTranId = 0) ∧ (c.msgId = .disConnect → n.adrTranId = nTranId) ∧ c.msgId ≠ .kckLost
  | .kcp _ _ _ nTranId _ => nTranId = 0 → n.adrTranId = 0
  | _ => True

instance OwnKeyed.decidable (n : CKKkcp) : ∀ e, Decidable (n.OwnKeyed e)
  | .control _ _ _ nTranId _ _ => inferInstanceAs (Decidable ((_ → nTranId = 0 → _) ∧ _ ∧ _))
  | .kcp _ _ _ nTranId _ => inferInstanceAs (Decidable (nTranId = 0 → n.adrTranId = 0))
  | .connect .. | .connectBy .. | .connectTranServer .. | .disConnect .. | .disConnectFrom ..
  | .stablySend .. | .handleCmd | .connMgrPass .. | .tranId .. => isTrue trivial

variable {inetAddr : String → UInt32} {n n' : CKKkcp} {now p : ℕ} {c : Control} {s d : UInt32}
  {ip : UInt32} {port : UInt16} {info info' : KcpInfo} {k j : String} {e : Event} {addr : KKAddress}

theorem senderKey_eq_iff : senderKey s (n.adr ip port) = KKAddress.toString2 ⟨ip, port, 0⟩ s ↔
    (s = 0 → n.adrTranId = 0) := by
  unfold senderKey
  split_ifs with hs
  · refine iff_of_true rfl ?_
    rintro rfl
    exact absurd hs (by decide)
  · have h0 : s = 0 := UInt32.le_zero_iff.mp (not_lt.mp hs)
    subst h0
    simp only [true_imp_iff]
    exact KKAddress.toString2_inj (a := ⟨ip, port, 0⟩) (t := 0)

theorem synAddr_toString (s : UInt32) (addr : KKAddress) :
    (synAddr s addr).toString = senderKey s addr := by
  unfold synAddr senderKey
  split_ifs <;> rfl

theorem lookedUp_eq_iff (n : CKKkcp) (e : Event) : n.lookedUp e = ownKey e ↔ n.OwnKeyed e := by
  cases e with
  | control now ip port s d c =>
    unfold lookedUp ownKey OwnKeyed
    have hdis : (n.adr ip port).toString = KKAddress.toString2 ⟨ip, port, 0⟩ s ↔ n.adrTranId = s :=
      KKAddress.toString2_inj (a := ⟨ip, port, 0⟩)
    cases hc : c.msgId <;>
      simp [hc, synAddr_toString, senderKey_eq_iff, hdis, (KKAddress.toString2_ne_empty _ _).symm]
  | kcp now ip port s d =>
    unfold lookedUp ownKey OwnKeyed
    simp only [Option.some.injEq]
    exact senderKey_eq_iff
  | _ => exact iff_of_true rfl trivial

/-! ### What is left in the address object -/

/-- The relay id of the address object after a step. -/
def leftTranId (n : CKKkcp) : Event → UInt32
  | .control _ _ _ nTranId _ c => if c.msgId = .syn ∧ nTranId > 0 then nTranId else n.adrTranId
  | _ => n.adrTranId

theorem onConHandle_adrTranId
    (h : n.onConHandle now c s d (n.adr ip port) = some n') :
    n'.adrTranId = n.leftTranId (.control now ip port s d c) := by
  unfold onConHandle at h
  unfold leftTranId
  cases hc : c.msgId <;> simp only [hc, reduceCtorEq, false_and, if_false, true_and] at h ⊢
  case syn =>
    obtain ⟨m, info, hm, -, rfl⟩ := onSyn_cases h
    have hstart : (n.synStart c s (n.adr ip port)).adrTranId = if s > 0 then s else n.adrTranId := by
      unfold synStart synAddr adr
      split_ifs <;> rfl
    rw [← hstart]
    rcases freeAt_cases hm with ⟨-, rfl⟩ | ⟨p, old, -, -, -, rfl⟩ <;> rfl
  case synAck =>
    obtain ⟨p, info, -, -, rfl⟩ := onSynAck_cases h
    rfl
  case ack => obtain ⟨p, info, -, -, ⟨-, rfl⟩ | rfl⟩ := onAck_cases h <;> rfl
  case link => obtain rfl | ⟨p, info, -, -, -, rfl⟩ := onLink_cases h <;> rfl
  case disConnect =>
    obtain rfl | ⟨p, info, -, -, rfl⟩ := onDisConnect_cases h <;> rfl
  case kcpHeart =>
    obtain ⟨-, rfl⟩ | ⟨p, info, -, -, ⟨-, rfl⟩ | ⟨-, rfl⟩⟩ := onKcpHeart_cases h <;> rfl
  case kckLost =>
    obtain rfl | ⟨p, info, -, -, -, rfl⟩ := onKckLost_cases h <;> rfl
  all_goals exact Option.some.inj h ▸ rfl

/-! ### The other entries -/

namespace Untouched

theorem refl (n : CKKkcp) (j : String) : Untouched n n j := ⟨rfl, fun _ _ => rfl⟩

theorem same (h : Untouched n n' j) {m : CKKkcp} (hs : SameTable n' m) : Untouched n m j := by
  unfold Untouched
  rw [hs.conIPInfoMap, hs.heap]
  exact h

theorem trans {m : CKKkcp} (h : Untouched n m j) (h' : Untouched m n' j) : Untouched n n' j := by
  refine ⟨h'.1.trans h.1, fun p hp => (h'.2 p ?_).trans (h.2 p hp)⟩
  rw [h.1]
  exact hp

/-- The record of another entry is another one. -/
theorem ne (h : Named n) (hp : n.conIPInfoMap.key1Find k = some p) (hj : j ≠ k) {q : ℕ}
    (hq : n.conIPInfoMap.key1Find j = some q) : q ≠ p := by
  rintro rfl
  obtain ⟨info, hi, hk⟩ := h.record k q hp
  exact hj ((h.key_eq hq hi).symm.trans hk)

theorem setInfo (h : Named n) (hp : n.conIPInfoMap.key1Find k = some p) (hj : j ≠ k)
    (info : KcpInfo) : Untouched n (n.setInfo p info) j :=
  ⟨rfl, fun _ hq => setInfo_heap_ne n (ne h hp hj hq) info⟩

theorem openKcp (h : Named n) (hp : n.conIPInfoMap.key1Find k = some p) (hj : j ≠ k)
    (info : KcpInfo) : Untouched n (n.openKcp k p info) j :=
  ⟨rfl, fun _ hq => openKcp_heap_ne n k info (ne h hp hj hq)⟩

theorem freed (h : Named n) (hp : n.conIPInfoMap.key1Find k = some p) (hi : n.heap p = some info)
    (hj : j ≠ k) (needMsg : Bool) : Untouched n (n.freed p info needMsg) j := by
  constructor
  · rw [freed_conIPInfoMap, TwoKeyMap.key1Find_key1Del, h.key_eq hp hi, if_neg hj]
  · intro q hq
    rw [freed_heap, Function.update_of_ne (ne h hp hj hq)]

theorem addInfo (h : Untouched n n' j) (hlt : ∀ p, n.conIPInfoMap.key1Find j = some p → p < n'.allocated)
    (hj : j ≠ k) (info : KcpInfo) : Untouched n (n'.addInfo k info) j := by
  constructor
  · rw [← h.1]
    unfold CKKkcp.addInfo
    rw [TwoKeyMap.key1Find_key1Insert, if_neg hj]
  · intro q hq
    rw [addInfo_heap_ne n' k info (hlt q hq).ne, h.2 q hq]

end Untouched

theorem onSyn_untouched (h : Named n) (hj : j ≠ senderKey s addr)
    (hn : n.onSyn now c s d addr = some n') : Untouched n n' j := by
  obtain ⟨m, info, hm, hinfo, rfl⟩ := onSyn_cases hn
  have hkey : info.addr.toString = senderKey s addr := by
    rw [hinfo, synInfo_addr, synAddr_toString]
  have hstart : SameTable n (n.synStart c s addr) := ⟨rfl, rfl, rfl⟩
  have hm' : Untouched n m j ∧ m.allocated = n.allocated := by
    rcases freeAt_cases hm with ⟨-, rfl⟩ | ⟨p, old, hp, hi, -, rfl⟩
    · exact ⟨(Untouched.refl n j).same hstart, rfl⟩
    · rw [synAddr_toString] at hp
      have hfree := Untouched.freed (h.same hstart) hp hi hj false
      exact ⟨hfree, freed_allocated ..⟩
  rw [hkey]
  exact hm'.1.addInfo (fun p hp => hm'.2 ▸ h.entry_lt j p hp) hj info

theorem onSynAck_untouched (h : Named n) (hj : j ≠ senderKey s addr)
    (hn : n.onSynAck now c s addr = some n') : Untouched n n' j := by
  obtain ⟨p, info, hp, hi, rfl⟩ := onSynAck_cases hn
  exact Untouched.openKcp h hp hj { info with
    state := .ack, sendtick := now, conv := c.conv, handShake := 0, mtu := c.mtu }

theorem onAck_untouched (h : Named n) (hj : j ≠ senderKey s addr)
    (hn : n.onAck now c s d addr = some n') : Untouched n n' j := by
  obtain ⟨p, info, hp, hi, ⟨hm, rfl⟩ | rfl⟩ := onAck_cases hn
  · exact Untouched.openKcp h hp hj { info with state := .link, sendtick := now }
  · exact Untouched.setInfo h hp hj { info with sendtick := now }

theorem onLink_untouched (h : Named n) (hj : j ≠ senderKey s addr)
    (hn : n.onLink now c s addr = some n') : Untouched n n' j := by
  obtain rfl | ⟨p, info, hp, hi, hm, rfl⟩ := onLink_cases hn
  · exact .refl n j
  · exact Untouched.setInfo h hp hj { info with state := .link, sendtick := now, handShake := 0 }

theorem onDisConnect_untouched (h : Named n) (hj : j ≠ addr.toString)
    (hn : n.onDisConnect addr = some n') : Untouched n n' j := by
  obtain rfl | ⟨p, info, hp, hi, rfl⟩ := onDisConnect_cases hn
  · exact .refl n' j
  · exact Untouched.setInfo h hp hj { info with state := .autoDisConnect }

theorem onKcp_untouched (h : Named n) (hj : j ≠ senderKey s addr)
    (hn : n.onKcp now s d addr = some n') : Untouched n n' j := by
  obtain ⟨-, rfl⟩ | ⟨p, info, hp, hi, rfl⟩ := onKcp_cases hn
  · exact .refl n j
  · exact Untouched.setInfo h hp hj { info with sendtick := now, rectick := now }

theorem onKckLost_untouched (h : Named n) (hj : j ≠ "") (hn : n.onKckLost addr = some n') :
    Untouched n n' j := by
  obtain rfl | ⟨p, info, hp, hi, -, rfl⟩ := onKckLost_cases hn
  · exact .refl n j
  · have hset : Named (n.setInfo p { info with state := .kckLost }) := h.setInfo hi rfl
    exact (Untouched.setInfo h hp hj _).trans (.freed hset hp (setInfo_heap_self ..) hj true)

/-- The entry that is looked up is the only one that is created, changed or freed. -/
theorem step_untouched (h : Named n) (hk : n.lookedUp e = some k)
    (hj : j ≠ k) (hn : n.step inetAddr e = some n') : Untouched n n' j := by
  cases e with
  | control now ip port s d c =>
    unfold lookedUp at hk
    have hn : n.onConHandle now c s d (n.adr ip port) = some n' := hn
    unfold onConHandle at hn
    cases hc : c.msgId <;> simp only [hc, Option.some.injEq, reduceCtorEq] at hk hn
    case syn => exact onSyn_untouched h (by rw [← synAddr_toString, hk]; exact hj) hn
    case synAck => exact onSynAck_untouched h (hk ▸ hj) hn
    case ack => exact onAck_untouched h (hk ▸ hj) hn
    case link => exact onLink_untouched h (hk ▸ hj) hn
    case disConnect => exact onDisConnect_untouched h (hk ▸ hj) hn
    case kckLost => exact onKckLost_untouched h (hk ▸ hj) hn
  | kcp now ip port s d =>
    have hk : senderKey s (n.adr ip port) = k := Option.some.inj hk
    exact onKcp_untouched h (hk ▸ hj) hn
  | _ => cases hk

theorem actsOnOwn_iff (h : Named n) (e : Event) : ActsOnOwn inetAddr n e ↔ n.OwnKeyed e := by
  rw [← lookedUp_eq_iff]
  refine ⟨fun ha => ha.key, fun hkey => ⟨hkey, fun n' hn k hk j hj => ?_⟩⟩
  rw [← hkey] at hk
  exact step_untouched h hk hj hn

/-- In a run whose calls make entries under the keys their addresses render, each datagram acts on
the entry of its sender and on no other if and only if no SYN that was relayed comes before a
direct datagram, no relayed disconnect comes from another id than the last relayed SYN, and no
link is reported lost. -/
theorem actsOnOwn_run_iff {automaticHeart : Bool} {es : List Event}
    (hs : Runs.Steps (advance inetAddr) (fun o e => ∀ n ∈ o, n.Renders inetAddr e)
      (some (start automaticHeart)) es) :
    Runs.Steps (advance inetAddr) (fun o e => ∀ n ∈ o, ActsOnOwn inetAddr n e)
        (some (start automaticHeart)) es ↔
      Runs.Steps (advance inetAddr) (fun o e => ∀ n ∈ o, n.OwnKeyed e)
        (some (start automaticHeart)) es := by
  refine Runs.Steps.iff_of_invariant (P := fun o => ∀ n ∈ o, Named n) ?_ ?_ ?_ hs
  · intro o e hw hr n' hn'
    obtain ⟨n, hn, hstep⟩ := Option.bind_eq_some_iff.mp hn'
    exact (hw n hn).step (hr n hn) hstep
  · intro o e hw
    exact forall₂_congr fun n hn => actsOnOwn_iff (hw n hn) e
  · rintro n ⟨⟩
    exact Named.start automaticHeart

/-- A SYN that was relayed and an ACK behind it, and a direct client that was there before. -/
def relayedLast : List Event :=
  [.control 0 0x0A000002 9000 0 0 (putsyn 101 0), .control 1 0x0A000002 9000 0 0 (putack 101 1436),
   .control 2 0x0A000001 8000 5 7 (putsyn 101 5), .control 3 0x0A000001 8000 5 7 (putack 102 1421)]

theorem actsOnOwn_relayedLast :
    Runs.Steps (advance twoHosts) (fun o e => ∀ n ∈ o, ActsOnOwn twoHosts n e) (some (start true))
      relayedLast :=
  (actsOnOwn_run_iff (by decide)).mpr (by decide)

/-- A direct client behind a relayed one. -/
def relayedFirst : List Event :=
  [.control 0 0x0A000001 8000 5 7 (putsyn 101 5), .control 1 0x0A000002 9000 0 0 (putsyn 101 0)]

/-- The direct client gets an entry under the relay id of the other one. -/
theorem not_actsOnOwn_relayedFirst :
    (∃ n, Runs.final (advance twoHosts) (some (start true)) relayedFirst = some n ∧
      n.conIPInfoMap.key1Find "10.0.0.2|9000" = none ∧
      n.conIPInfoMap.key1Find "10.0.0.2|9000|5" = some 1) ∧
    ¬ Runs.Steps (advance twoHosts) (fun o e => ∀ n ∈ o, ActsOnOwn twoHosts n e) (some (start true))
      relayedFirst := by
  constructor
  · have hrun : ((Runs.final (advance twoHosts) (some (start true)) relayedFirst).any fun n =>
        n.conIPInfoMap.key1Find "10.0.0.2|9000" = none ∧
        n.conIPInfoMap.key1Find "10.0.0.2|9000|5" = some 1) = true := by decide
    obtain ⟨n, hn, h⟩ := (Option.any_eq_true _ _).mp hrun
    exact ⟨n, hn, of_decide_eq_true h⟩
  · intro h
    have hkeyed : Runs.Steps (advance twoHosts) (fun o e => ∀ n ∈ o, n.OwnKeyed e) (some (start true))
        relayedFirst := h.imp fun o e ho n hn => (lookedUp_eq_iff n e).mp (ho n hn).key
    revert hkeyed
    decide

end CKKkcp

end KkLicode.Kcp
