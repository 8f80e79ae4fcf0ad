import KkLicode.Base.Runs
import KkLicode.Kcp.Changes
import KkLicode.Kcp.Routing
import KkLicode.Kcp.TwoKeyRuns

/-! The table of connections. A record is deleted from the table under the key its
address renders, so an entry has to be stored under that key, and a record may have
one conversation only. As long as the calls of the application and the handshake
messages see to that, a record that is freed leaves all three maps, and they never
lead to a record that is gone. A record without a control block is not freed: its
destructor fails. -/

namespace KkLicode.Kcp.CKKkcp

open Base

variable (inetAddr : String → UInt32)

/-! ### Entries under the rendered address -/

/-- A call that makes an entry makes it under the key its address renders. -/
def Renders (n : CKKkcp) : Event → Prop
  | .connect _ ip port => n.conIPInfoMap.key1Find (hostKey ip port) = none →
      (fromString inetAddr ip port 0).toString = hostKey ip port
  | .connectTranServer _ ip port => n.conIPInfoMap.key1Find (hostKey ip port.toNat) = none →
      (fromString inetAddr ip port.toNat 0).toString = hostKey ip port.toNat
  | _ => True

instance Renders.decidable (n : CKKkcp) : ∀ e, Decidable (n.Renders inetAddr e)
  | .connect _ ip port => inferInstanceAs (Decidable
      (n.conIPInfoMap.key1Find (hostKey ip port) = none → _ = _))
  | .connectTranServer _ ip port => inferInstanceAs (Decidable
      (n.conIPInfoMap.key1Find (hostKey ip port.toNat) = none → _ = _))
  | .connectBy .. | .disConnect .. | .disConnectFrom .. | .stablySend .. | .handleCmd
  | .connMgrPass .. | .control .. | .tranId .. | .kcp .. => isTrue trivial

structure Named (n : CKKkcp) : Prop where
  entry_lt : ∀ k p, n.conIPInfoMap.key1Find k = some p → p < n.allocated
  record : ∀ k p, n.conIPInfoMap.key1Find k = some p →
    ∃ info, n.heap p = some info ∧ info.addr.toString = k

variable {inetAddr} {n n' m : CKKkcp} {now p : ℕ} {info info' : KcpInfo} {k : String} {e : Event}

theorem Named.start (automaticHeart : Bool) : Named (start automaticHeart) where
  entry_lt k p h := by simp [CKKkcp.start] at h
  record k p h := by simp [CKKkcp.start] at h

namespace Named

theorem same (h : Named n) (hs : SameTable n n') : Named n' where
  entry_lt := by simpa only [hs.conIPInfoMap, hs.allocated] using h.entry_lt
  record := by simpa only [hs.conIPInfoMap, hs.heap] using h.record

/-- A record has one key. -/
theorem key_eq (h : Named n) (hp : n.conIPInfoMap.key1Find k = some p) (hi : n.heap p = some info) :
    info.addr.toString = k := by
  obtain ⟨i, hi', hk⟩ := h.record k p hp
  rw [hi, Option.some.injEq] at hi'
  exact hi' ▸ hk

theorem setInfo (h : Named n) (hi : n.heap p = some info) (ha : info'.addr = info.addr) :
    Named (n.setInfo p info') where
  entry_lt := h.entry_lt
  record k q hq := by
    by_cases hqp : q = p
    · subst hqp
      exact ⟨info', setInfo_heap_self .., ha ▸ h.key_eq hq hi⟩
    · obtain ⟨i, hi', hk⟩ := h.record k q hq
      exact ⟨i, (setInfo_heap_ne n hqp info').trans hi', hk⟩

theorem freed (h : Named n) (hp : n.conIPInfoMap.key1Find k = some p) (hi : n.heap p = some info)
    (needMsg : Bool) : Named (n.freed p info needMsg) := by
  have find_of {j : String} {q : ℕ}
      (hq : (n.freed p info needMsg).conIPInfoMap.key1Find j = some q) :
      q ≠ p ∧ n.conIPInfoMap.key1Find j = some q := by
    rw [freed_conIPInfoMap, TwoKeyMap.key1Find_key1Del] at hq
    split_ifs at hq with hj
    refine ⟨?_, hq⟩
    rintro rfl
    exact hj (h.key_eq hq hi).symm
  constructor
  · intro j q hq
    rw [freed_allocated]
    exact h.entry_lt j q (find_of hq).2
  · intro j q hq
    obtain ⟨hqp, hq⟩ := find_of hq
    obtain ⟨i, hi', hk⟩ := h.record j q hq
    exact ⟨i, (freed_heap n p info needMsg ▸ Function.update_of_ne hqp ..).trans hi', hk⟩

theorem addInfo (h : Named n) (hk : info.addr.toString = k) : Named (n.addInfo k info) := by
  have find_of {j : String} {q : ℕ}
      (hq : (n.addInfo k info).conIPInfoMap.key1Find j = some q) :
      (j = k ∧ q = n.allocated) ∨ n.conIPInfoMap.key1Find j = some q := by
    unfold CKKkcp.addInfo at hq
    rw [TwoKeyMap.key1Find_key1Insert] at hq
    split_ifs at hq with hj
    · cases hv : n.conIPInfoMap.key1Find k with
      | none => exact .inl ⟨hj, by simpa [hv, eq_comm] using hq⟩
      | some v =>
        rw [hv, Option.getD_some] at hq
        exact .inr (hj ▸ hv.trans hq)
    · exact .inr hq
  constructor
  · intro j q hq
    show q < n.allocated + 1
    rcases find_of hq with ⟨-, rfl⟩ | hq
    · exact Nat.lt_succ_self _
    · exact (h.entry_lt j q hq).trans (Nat.lt_succ_self _)
  · intro j q hq
    rcases find_of hq with ⟨rfl, rfl⟩ | hq
    · exact ⟨info, addInfo_heap_self .., hk⟩
    · obtain ⟨i, hi, hj⟩ := h.record j q hq
      exact ⟨i, (addInfo_heap_ne n k info (h.entry_lt j q hq).ne).trans hi, hj⟩

theorem openKcp (h : Named n) (hi : n.heap p = some info) (ha : info'.addr = info.addr) :
    Named (n.openKcp k p info') where
  entry_lt := h.entry_lt
  record j q hq := by
    by_cases hqp : q = p
    · subst hqp
      exact ⟨_, openKcp_heap_self .., ha ▸ h.key_eq hq hi⟩
    · obtain ⟨i, hi', hk⟩ := h.record j q hq
      exact ⟨i, (openKcp_heap_ne n k info' hqp).trans hi', hk⟩

theorem manage (h : Named n) (hp : n.conIPInfoMap.key1Find k = some p)
    {r : CKKkcp × Option (Option String)} (hr : n.manage now p = some r) : Named r.1 := by
  obtain ⟨info, hi, hr⟩ := manage_cases hr
  cases hr with
  | keep a b k ds hd =>
    have hset : Named (n.setInfo p (info.timed a b k)) := h.setInfo hi rfl
    exact hset.same ⟨rfl, rfl, rfl⟩
  | free => exact h.freed hp hi true

theorem step (h : Named n) (hr : n.Renders inetAddr e) (hn : n.step inetAddr e = some n') :
    Named n' := by
  cases step_change hn with
  | keep hs => exact h.same hs
  | update info' hi ha hs => exact (h.setInfo hi ha).same hs
  | lost hp hi hk hs => exact (h.freed hp hi true).same hs
  | syn hp hs => exact (h.addInfo rfl).same hs
  | synAgain hp hi hk hs => exact ((h.freed hp hi false).addInfo rfl).same hs
  | enter info' hp hi hc ha hconv hs => exact (h.openKcp hi ha).same hs
  | connect info hp ha hs => exact (h.addInfo (ha ▸ hr hp)).same hs
  | connectBy info ha hr hp hs => exact (h.addInfo rfl).same hs
  | connectTranServer info hp ha hs => exact (h.addInfo (ha ▸ hr hp)).same hs
  | pass hpass => exact passFrom_invariant (fun _ _ _ _ h hp hr => h.manage hp hr) h hpass

end Named

/-! ### One conversation for each entry -/

variable (inetAddr) in
/-- What is added to the table is new to it: a record that is added has a free key, and the
conversation a SYNACK, or an ACK that is accepted, enters is not 0, is no other record's and is the
only one of its record. -/
def Fits (n : CKKkcp) : Event → Prop
  | .connectBy _ tranIp port nDestTranId =>
    (n.conIPInfoMap.key1Find (hostKey tranIp port.toNat)).isSome →
      n.conIPInfoMap.key1Find (hostKey tranIp port.toNat ++ "|" ++ itoa nDestTranId) = none →
      n.conIPInfoMap.key1Find (fromString inetAddr tranIp port.toNat nDestTranId).toString = none
  | .control _ ip port nTranId _ c =>
    ∀ p ∈ n.conIPInfoMap.key1Find (senderKey nTranId (n.adr ip port)), ∀ info ∈ n.heap p,
      c.msgId = .synAck ∨ c.msgId = .ack ∧ Accepts info c →
        c.conv ≠ 0 ∧ n.conIPInfoMap.Fits2 c.conv p
  | _ => True

instance Accepts.decidable (info : KcpInfo) (c : Control) : Decidable (Accepts info c) :=
  inferInstanceAs (Decidable (_ ∧ _ ∧ _))

instance Fits.decidable (n : CKKkcp) : ∀ e, Decidable (n.Fits inetAddr e)
  | .connectBy _ tranIp port _ => inferInstanceAs (Decidable
      ((n.conIPInfoMap.key1Find (hostKey tranIp port.toNat)).isSome → _ = none → _ = none))
  | .control _ ip port nTranId _ c => inferInstanceAs (Decidable
      (∀ p ∈ n.conIPInfoMap.key1Find (senderKey nTranId (n.adr ip port)), ∀ info ∈ n.heap p,
        c.msgId = .synAck ∨ c.msgId = .ack ∧ Accepts info c →
          c.conv ≠ 0 ∧ n.conIPInfoMap.Fits2 c.conv p))
  | .connect .. | .connectTranServer .. | .disConnect .. | .disConnectFrom .. | .stablySend ..
  | .handleCmd | .connMgrPass .. | .tranId .. | .kcp .. => isTrue trivial

structure Filed (n : CKKkcp) : Prop extends Named n where
  agrees : n.conIPInfoMap.Agrees
  nonzero : n.conIPInfoMap.key2Find 0 = none

theorem Filed.start (automaticHeart : Bool) : Filed (start automaticHeart) where
  toNamed := .start automaticHeart
  agrees := TwoKeyMap.Agrees.empty
  nonzero := rfl

namespace Filed

theorem same (h : Filed n) (hs : SameTable n n') : Filed n' where
  toNamed := h.toNamed.same hs
  agrees := hs.conIPInfoMap ▸ h.agrees
  nonzero := hs.conIPInfoMap ▸ h.nonzero

theorem setInfo (h : Filed n) (hi : n.heap p = some info) (ha : info'.addr = info.addr) :
    Filed (n.setInfo p info') where
  toNamed := h.toNamed.setInfo hi ha
  agrees := h.agrees
  nonzero := h.nonzero

theorem delExact (h : Filed n) (hp : n.conIPInfoMap.key1Find k = some p) :
    n.conIPInfoMap.DelExact k := by
  rw [TwoKeyMap.delExact_iff h.agrees hp]
  intro j hj w hw
  rcases (h.agrees.keys p j.1 j.2 hj).2 with h2 | h2
  · exact Option.some.inj (hw.symm.trans h2)
  · rw [h2] at hw
    exact absurd (hw.symm.trans h.nonzero) (by simp)

theorem freed (h : Filed n) (hp : n.conIPInfoMap.key1Find k = some p) (hi : n.heap p = some info)
    (needMsg : Bool) : Filed (n.freed p info needMsg) where
  toNamed := h.toNamed.freed hp hi needMsg
  agrees := by
    rw [freed_conIPInfoMap, h.toNamed.key_eq hp hi]
    exact h.agrees.key1Del (h.delExact hp)
  nonzero := by
    rw [freed_conIPInfoMap, h.toNamed.key_eq hp hi, TwoKeyMap.key2Find_key1Del hp, h.nonzero]
    split_ifs <;> rfl

theorem addInfo (h : Filed n) (hk : info.addr.toString = k)
    (hp : n.conIPInfoMap.key1Find k = none) : Filed (n.addInfo k info) where
  toNamed := h.toNamed.addInfo hk
  agrees := by
    refine (TwoKeyMap.agrees_key1Insert_iff h.agrees).mpr ⟨fun w hw => ?_, fun j hj => ?_⟩
    · exact absurd (hp.symm.trans hw) (by simp)
    · have hlt := h.entry_lt j.1 _ (h.agrees.keys _ j.1 j.2 hj).1
      exact absurd hlt (lt_irrefl _)
  nonzero := h.nonzero

theorem openKcp (h : Filed n) (hp : n.conIPInfoMap.key1Find k = some p)
    (hi : n.heap p = some info) (ha : info'.addr = info.addr) (h0 : info'.conv ≠ 0)
    (hfits : n.conIPInfoMap.Fits2 info'.conv p) : Filed (n.openKcp k p info') where
  toNamed := h.toNamed.openKcp hi ha
  agrees := by
    obtain ⟨k2, h3⟩ := h.agrees.value1 k p hp
    exact (TwoKeyMap.agrees_key2insert_iff h.agrees).mpr ⟨by simp [h3], hfits⟩
  nonzero := by
    unfold CKKkcp.openKcp
    rw [TwoKeyMap.key2Find_key2insert, if_neg h0.symm]
    exact h.nonzero

theorem manage (h : Filed n) (hp : n.conIPInfoMap.key1Find k = some p)
    {r : CKKkcp × Option (Option String)} (hr : n.manage now p = some r) : Filed r.1 := by
  obtain ⟨info, hi, hr⟩ := manage_cases hr
  cases hr with
  | keep a b k ds hd =>
    have hset : Filed (n.setInfo p (info.timed a b k)) := h.setInfo hi rfl
    exact hset.same ⟨rfl, rfl, rfl⟩
  | free => exact h.freed hp hi true

theorem step (h : Filed n) (hr : n.Renders inetAddr e) (hf : n.Fits inetAddr e)
    (hn : n.step inetAddr e = some n') : Filed n' := by
  cases step_change hn with
  | keep hs => exact h.same hs
  | update info' hi ha hs => exact (h.setInfo hi ha).same hs
  | lost hp hi hk hs => exact (h.freed hp hi true).same hs
  | syn hp hs => exact (h.addInfo rfl hp).same hs
  | synAgain hp hi hk hs =>
    refine ((h.freed hp hi false).addInfo rfl ?_).same hs
    rw [freed_conIPInfoMap, TwoKeyMap.key1Find_key1Del, if_pos (h.toNamed.key_eq hp hi).symm]
  | enter info' hp hi hc ha hconv hs =>
    obtain ⟨h0, hfits⟩ := hf _ hp _ hi hc
    exact (h.openKcp hp hi ha (hconv ▸ h0) (hconv ▸ hfits)).same hs
  | connect info hp ha hs => exact (h.addInfo (ha ▸ hr hp) hp).same hs
  | connectBy info ha hrelay hp hs => exact (h.addInfo rfl (ha ▸ hf hrelay hp)).same hs
  | connectTranServer info hp ha hs => exact (h.addInfo (ha ▸ hr hp) hp).same hs
  | pass hpass => exact passFrom_invariant (fun _ _ _ _ h hp hr => h.manage hp hr) h hpass

end Filed

/-! ### What is freed -/

/-- No map leads to a record that is gone. -/
structure Live (n : CKKkcp) : Prop where
  key1 : ∀ k p, n.conIPInfoMap.map1.find k = some p → (n.heap p).isSome
  key2 : ∀ c p, n.conIPInfoMap.map2.find c = some p → (n.heap p).isSome
  keys : ∀ p ks, n.conIPInfoMap.map3.find p = some ks → (n.heap p).isSome

/-- The entry of the record is gone from the three maps, and all others are what they were. -/
structure Gone (n n' : CKKkcp) (k : String) (p : ℕ) : Prop where
  key1 : ∀ j, n'.conIPInfoMap.map1.find j = if j = k then none else n.conIPInfoMap.map1.find j
  key2 : ∀ c, n'.conIPInfoMap.map2.find c =
    if n.conIPInfoMap.map2.find c = some p then none else n.conIPInfoMap.map2.find c
  keys : ∀ q, n'.conIPInfoMap.map3.find q = if q = p then none else n.conIPInfoMap.map3.find q
  heap : ∀ q, n'.heap q = if q = p then none else n.heap q

/-- `FreeKcpInfo` returns, the entry it was given is gone, and no map leads to its record. -/
def FreedExactly (n : CKKkcp) (k : String) (p : ℕ) (needMsg : Bool) : Prop :=
  ∃ n' it, n.freeKcpInfo p needMsg = some (n', it) ∧ Gone n n' k p ∧ Live n'

/-- Each entry is stored under the key its address renders and can be freed if it has a control
block, and the table never leads to a record that is gone. -/
structure FreesExactly (n : CKKkcp) : Prop where
  live : Live n
  renders : ∀ k p info, n.conIPInfoMap.key1Find k = some p → n.heap p = some info →
    info.addr.toString = k
  frees : ∀ k p info needMsg, n.conIPInfoMap.key1Find k = some p → n.heap p = some info →
    (FreedExactly n k p needMsg ↔ info.kcp.isSome)

namespace Filed

theorem live (h : Filed n) : Live n := by
  have keys (p : ℕ) (ks : String × UInt32) (hks : n.conIPInfoMap.map3.find p = some ks) :
      (n.heap p).isSome := by
    obtain ⟨info, hi, -⟩ := h.record ks.1 p (h.agrees.keys p ks.1 ks.2 hks).1
    simp [hi]
  constructor
  · intro k p hp
    obtain ⟨c, hks⟩ := h.agrees.value1 k p hp
    exact keys p _ hks
  · intro c p hp
    obtain ⟨k, hks⟩ := h.agrees.value2 c p hp
    exact keys p _ hks
  · exact keys

theorem gone (h : Filed n) (hp : n.conIPInfoMap.key1Find k = some p) (hi : n.heap p = some info)
    (needMsg : Bool) : Gone n (n.freed p info needMsg) k p := by
  have hexact := h.delExact hp
  have hp' : n.conIPInfoMap.map1.find k = some p := hp
  unfold TwoKeyMap.DelExact at hexact
  simp only [hp'] at hexact
  obtain ⟨f1, f2, f3⟩ := hexact
  rw [← h.toNamed.key_eq hp hi] at f1 f2 f3 ⊢
  exact ⟨f1, f2, f3, fun q => by rw [freed_heap, Function.update_apply]⟩

theorem freesExactly (h : Filed n) : FreesExactly n where
  live := h.live
  renders _ _ _ hp hi := h.toNamed.key_eq hp hi
  frees k p info needMsg hp hi := by
    constructor
    · rintro ⟨n', it, hfree, -⟩
      exact (freeKcpInfo_cases hi hfree).1
    · intro hk
      obtain ⟨kcp, hk⟩ := Option.isSome_iff_exists.mp hk
      refine ⟨n.freed p info needMsg, (n.conIPInfoMap.key1Del info.addr.toString).2, ?_,
        h.gone hp hi needMsg, (h.freed hp hi needMsg).live⟩
      rw [freeKcpInfo_eq hi needMsg, hk]
      rfl

end Filed

variable (inetAddr) in
/-- What the calls and messages of a step file, they file where it is found again. -/
def Files (n : CKKkcp) (e : Event) : Prop := n.Renders inetAddr e ∧ n.Fits inetAddr e

instance Files.decidable (n : CKKkcp) (e : Event) : Decidable (n.Files inetAddr e) :=
  inferInstanceAs (Decidable (_ ∧ _))

theorem Filed.run {automaticHeart : Bool} {es : List Event}
    (hs : Runs.Steps (advance inetAddr) (fun s e => ∀ n ∈ s, n.Files inetAddr e)
      (some (CKKkcp.start automaticHeart)) es)
    (hn : Runs.final (advance inetAddr) (some (CKKkcp.start automaticHeart)) es = some n) :
    Filed n := by
  refine hs.invariant (P := fun s => ∀ n ∈ s, Filed n) ?_ ?_ n hn
  · intro s e hw hf n' hn'
    obtain ⟨n, hn, hstep⟩ := Option.bind_eq_some_iff.mp hn'
    exact (hw n hn).step (hf n hn).1 (hf n hn).2 hstep
  · rintro n ⟨⟩
    exact Filed.start automaticHeart

/-- In a run whose steps all file what they add where it is found again, `FreeKcpInfo` of an entry
with a control block takes it out of all three maps and no other, and no map leads to a record
that is gone. -/
theorem freesExactly_run {automaticHeart : Bool} {es : List Event}
    (hs : Runs.Steps (advance inetAddr) (fun s e => ∀ n ∈ s, n.Files inetAddr e)
      (some (start automaticHeart)) es)
    (hn : Runs.final (advance inetAddr) (some (start automaticHeart)) es = some n) :
    FreesExactly n := (Filed.run hs hn).freesExactly

theorem freesExactly_bothWays :
    ∃ n, Runs.final (advance twoHosts) (some (start true)) bothWays = some n ∧
      n.conIPInfoMap.key1Find "10.0.0.2|9000" = some 1 ∧ FreesExactly n := by
  have hrun : ((Runs.final (advance twoHosts) (some (start true)) bothWays).any fun n =>
      n.conIPInfoMap.key1Find "10.0.0.2|9000" = some 1) = true := by decide
  obtain ⟨n, hn, h⟩ := (Option.any_eq_true _ _).mp hrun
  exact ⟨n, hn, of_decide_eq_true h, freesExactly_run (by decide) hn⟩

/-- A client whose SYN is answered twice. -/
def answeredTwice : List Event :=
  [.connect 0 "10.0.0.1" 8000, .control 1 0x0A000001 8000 0 0 (putsynack 101 1430),
   .control 2 0x0A000001 8000 0 0 (putsynack 102 1430)]

/-- A host that is not given as four numbers has an entry under another key. When the entry of a
client that was answered twice is freed, its first conversation still leads to the record. -/
theorem not_freesExactly :
    (∃ n info, Runs.final (advance twoHosts) (some (start true)) [.connect 0 "localhost" 8000] =
        some n ∧ n.conIPInfoMap.key1Find "localhost|8000" = some 0 ∧ n.heap 0 = some info ∧
      info.addr.toString = "255.255.255.255|8000" ∧ ¬ FreesExactly n) ∧
    ∃ n n' it, Runs.final (advance twoHosts) (some (start true)) answeredTwice = some n ∧
      n.conIPInfoMap.key1Find "10.0.0.1|8000" = some 0 ∧ n.freeKcpInfo 0 true = some (n', it) ∧
      n'.conIPInfoMap.key2Find 101 = some 0 ∧ n'.heap 0 = none ∧ ¬ FreesExactly n := by
  constructor
  · have hrun : ((Runs.final (advance twoHosts) (some (start true))
        [.connect 0 "localhost" 8000]).any fun n =>
          n.conIPInfoMap.key1Find "localhost|8000" = some 0 ∧ (n.heap 0).any fun info =>
            info.addr.toString = "255.255.255.255|8000") = true := by decide
    obtain ⟨n, hn, h⟩ := (Option.any_eq_true _ _).mp hrun
    obtain ⟨hp, hi⟩ := of_decide_eq_true h
    obtain ⟨info, hi, hkey⟩ := (Option.any_eq_true _ _).mp hi
    have hkey := of_decide_eq_true hkey
    refine ⟨n, info, hn, hp, hi, hkey, fun h => ?_⟩
    exact absurd (hkey.symm.trans (h.renders _ _ _ hp hi)) (by decide)
  · have hrun : ((Runs.final (advance twoHosts) (some (start true)) answeredTwice).any fun n =>
        n.conIPInfoMap.key1Find "10.0.0.1|8000" = some 0 ∧
          (n.heap 0).any (fun info => info.kcp.isSome) ∧ (n.freeKcpInfo 0 true).any fun r =>
            r.1.conIPInfoMap.key2Find 101 = some 0 ∧ r.1.heap 0 = none) = true := by decide
    obtain ⟨n, hn, h⟩ := (Option.any_eq_true _ _).mp hrun
    obtain ⟨hp, hi, hfree⟩ := of_decide_eq_true h
    obtain ⟨info, hi, hk⟩ := (Option.any_eq_true _ _).mp hi
    obtain ⟨⟨n', it⟩, hfree, hafter⟩ := (Option.any_eq_true _ _).mp hfree
    obtain ⟨hconv, hgone⟩ := of_decide_eq_true hafter
    refine ⟨n, n', it, hn, hp, hfree, hconv, hgone, fun h => ?_⟩
    obtain ⟨m, jt, hm, -, hlive⟩ := (h.frees _ _ info true hp hi).mpr hk
    cases hfree.symm.trans hm
    have hsome := hlive.key2 101 0 hconv
    rw [hgone] at hsome
    cases hsome

end KkLicode.Kcp.CKKkcp
