import KkLicode.Kcp.Peers

/-! The control blocks of a node. They are numbered in the order in which they are
opened, so that a block opened for a record is not any that a record had before. -/

namespace KkLicode.Kcp.CKKkcp

variable {inetAddr : String → UInt32} {n n' m : CKKkcp} {now p : ℕ} {info info' : KcpInfo}
  {c : Control} {k : String} {e : Event} {addr : KKAddress} {server : Bool}

/-- Every block is one of before or has a number of before the next one. -/
structure Opens (n n' : CKKkcp) : Prop where
  kcps : n.kcps ≤ n'.kcps
  record : ∀ p info', n'.heap p = some info' → ∀ kcp ∈ info'.kcp,
    kcp.id < n'.kcps ∨ ∃ q info, n.heap q = some info ∧ kcp ∈ info.kcp

/-- All blocks have numbers of before the next one. -/
def Numbered (n : CKKkcp) : Prop :=
  ∀ p info, n.heap p = some info → ∀ kcp ∈ info.kcp, kcp.id < n.kcps

namespace Opens

theorem refl (n : CKKkcp) : Opens n n := ⟨le_rfl, fun p info hi _ hk => .inr ⟨p, info, hi, hk⟩⟩

theorem trans (h : Opens n m) (h' : Opens m n') : Opens n n' where
  kcps := h.kcps.trans h'.kcps
  record p info' hi kcp hk := by
    rcases h'.record p info' hi kcp hk with hlt | ⟨q, info, hq, hk⟩
    · exact .inl hlt
    · exact (h.record q info hq kcp hk).imp_left fun hlt => hlt.trans_le h'.kcps

theorem same (h : Opens n m) (hh : n'.heap = m.heap) (hk : n'.kcps = m.kcps) : Opens n n' where
  kcps := hk ▸ h.kcps
  record := by
    rw [hh, hk]
    exact h.record

theorem numbered (h : Opens n n') (hn : Numbered n) : Numbered n' := by
  intro p info' hi kcp hk
  rcases h.record p info' hi kcp hk with hlt | ⟨q, info, hq, hk⟩
  · exact hlt
  · exact (hn q info hq kcp hk).trans_le h.kcps

theorem setInfo (info' : KcpInfo) (hi : n.heap p = some info) (hk : info'.kcp = info.kcp) :
    Opens n (n.setInfo p info') where
  kcps := le_rfl
  record q i hq kcp hkcp := by
    by_cases hqp : q = p
    · subst hqp
      rw [setInfo_heap_self] at hq
      cases hq
      exact .inr ⟨q, info, hi, hk ▸ hkcp⟩
    · rw [setInfo_heap_ne n hqp] at hq
      exact .inr ⟨q, i, hq, hkcp⟩

theorem freed (p : ℕ) (info : KcpInfo) (needMsg : Bool) :
    Opens n (n.freed p info needMsg) where
  kcps := by cases needMsg <;> exact le_rfl
  record q i hq _ hkcp := .inr ⟨q, i, (heap_of_freed hq).2, hkcp⟩

theorem addInfo (k : String) (info : KcpInfo) (h : info.kcp = none) : Opens n (n.addInfo k info) where
  kcps := le_rfl
  record q i hq kcp hkcp := by
    by_cases hqp : q = n.allocated
    · subst hqp
      rw [addInfo_heap_self] at hq
      cases hq
      rw [h] at hkcp
      cases hkcp
    · rw [addInfo_heap_ne n k info hqp] at hq
      exact .inr ⟨q, i, hq, hkcp⟩

theorem openKcp (k : String) (p : ℕ) (info : KcpInfo) : Opens n (n.openKcp k p info) where
  kcps := Nat.le_succ _
  record q i hq kcp hkcp := by
    by_cases hqp : q = p
    · subst hqp
      rw [openKcp_heap_self] at hq
      cases hq
      cases hkcp
      exact .inl (Nat.lt_succ_self _)
    · rw [openKcp_heap_ne n k info hqp] at hq
      exact .inr ⟨q, i, hq, hkcp⟩

end Opens

theorem onConHandle_opens {s d : UInt32} (h : n.onConHandle now c s d addr = some n') :
    Opens n n' := by
  unfold onConHandle at h
  cases hc : c.msgId <;> simp only [hc] at h
  case disConnect =>
    obtain rfl | ⟨p, info, -, hi, rfl⟩ := onDisConnect_cases h
    · exact .refl n'
    · exact .setInfo _ hi rfl
  case syn =>
    obtain ⟨m, info, hm, hinfo, rfl⟩ := onSyn_cases h
    have hstart : Opens n (n.synStart c s addr) := .same (.refl n) rfl rfl
    have hm' : Opens n m := by
      rcases freeAt_cases hm with ⟨-, rfl⟩ | ⟨p, old, -, -, -, rfl⟩
      · exact hstart
      · exact hstart.trans (.freed p old false)
    have hnone : info.kcp = none := by rw [hinfo, synInfo_kcp]
    exact (hm'.trans (.addInfo info.addr.toString info hnone)).same rfl rfl
  case synAck =>
    obtain ⟨p, info, -, -, rfl⟩ := onSynAck_cases h
    exact (Opens.openKcp (senderKey s addr) p _).same rfl rfl
  case ack =>
    obtain ⟨p, info, -, hi, ⟨-, rfl⟩ | rfl⟩ := onAck_cases h
    · exact (Opens.openKcp (senderKey s addr) p _).same rfl rfl
    · exact (Opens.setInfo { info with sendtick := now } hi rfl).same rfl rfl
  case link =>
    obtain rfl | ⟨p, info, -, hi, -, rfl⟩ := onLink_cases h
    · exact .same (.refl n) rfl rfl
    · exact (Opens.setInfo { info with state := .link, sendtick := now, handShake := 0 } hi rfl).same
        rfl rfl
  case kcpHeart =>
    obtain ⟨-, rfl⟩ | ⟨p, info, -, hi, ⟨-, rfl⟩ | ⟨-, rfl⟩⟩ := onKcpHeart_cases h
    · exact .same (.refl n) rfl rfl
    · exact (Opens.setInfo { info with sendtick := now, rectick := now } hi rfl).same rfl rfl
    · exact (Opens.setInfo { info with sendtick := now } hi rfl).same rfl rfl
  case kckLost =>
    obtain rfl | ⟨p, info, -, hi, -, rfl⟩ := onKckLost_cases h
    · exact .same (.refl n) rfl rfl
    · have hset : Opens n (n.setInfo p { info with state := .kckLost }) := .setInfo _ hi rfl
      exact (hset.trans (.freed p { info with state := .kckLost } true)).same rfl rfl
  all_goals exact Option.some.inj h ▸ .same (.refl n) rfl rfl

theorem connMgrPass_opens (h : n.connMgrPass now = some n') : Opens n n' := by
  refine passFrom_invariant (P := fun m => Opens n m) (fun m k p r hm _ hr => hm.trans ?_)
    (.refl n) h
  obtain ⟨info, hi, hr⟩ := manage_cases hr
  cases hr with
  | keep a b k ds hds => exact (Opens.setInfo (info.timed a b k) hi rfl).same rfl rfl
  | free => exact .freed p info true

theorem connect_opens {ip : String} {port : ℤ} (h : n.connect inetAddr now ip port = some n') :
    Opens n n' := by
  obtain rfl | ⟨-, rfl⟩ := connect_cases h
  · exact .refl n'
  · exact (Opens.addInfo (hostKey ip port)
      { conv := n.curConv + 1, addr := fromString inetAddr ip port 0, state := .syn
        sponsor := true, sendtick := now, rectick := now } rfl).same rfl rfl

theorem handleCmd_opens (n : CKKkcp) : Opens n n.handleCmd := by
  unfold handleCmd
  split
  · exact .refl n
  · dsimp only
    split <;> exact .same (.refl n) rfl rfl

theorem step_opens (ha : Allowed server e) (h : n.step inetAddr e = some n') : Opens n n' := by
  cases e with
  | connect now ip port => exact connect_opens h
  | handleCmd => exact Option.some.inj h ▸ handleCmd_opens n
  | connMgrPass now => exact connMgrPass_opens h
  | control now ip port s d c => exact onConHandle_opens h
  | _ => exact ha.elim

theorem numbered_start (automaticHeart : Bool) : Numbered (start automaticHeart) :=
  fun _ _ h => nomatch h

end KkLicode.Kcp.CKKkcp
