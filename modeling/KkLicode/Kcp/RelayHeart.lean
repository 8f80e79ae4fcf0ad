import KkLicode.Kcp.ConTable

/-! The heartbeats of relay registrations. A pass of the connection manager gives
every record one turn, as long as each record it frees is stored under the key its
address renders and has a control block. The turn of a registration sends the
heartbeat only if the record is not one that `ConnectTranServer` made: those are
taken for connections, which have another heartbeat. -/

namespace KkLicode.Kcp.CKKkcp

open Base

/-- What a pass owes the record of a registration: it stays, and when it was not refreshed for
more than five seconds it is, with a heartbeat to its address. -/
structure KeepsRegistration (n n' : CKKkcp) (now p : ℕ) (info : KcpInfo) : Prop where
  stays : n'.heap p ≠ none
  heart : now - info.sendtick > MinHeartValue →
    { dest := info.addr, body := .tranHeart } ∈ n'.sent.drop n.sent.length ∧
      (n'.heap p).map (·.sendtick) = some now

/-- The pass keeps all registrations alive. -/
def KeepsRelays (n : CKKkcp) : Event → Prop
  | .connMgrPass now => ∀ x ∈ n.conIPInfoMap.map1.pairs, ∀ info ∈ n.heap x.2,
      info.state = .tranIdOk → ∃ n' ∈ n.connMgrPass now, KeepsRegistration n n' now x.2 info
  | _ => True

/-- Every entry refers to a record that is stored under the key its address renders. -/
def Keyed (n : CKKkcp) : Prop :=
  ∀ x ∈ n.conIPInfoMap.map1.pairs, (n.heap x.2).map (·.addr.toString) = some x.1

/-- The SYN or the ACK of a record, or its request for a relay id, is sent again. -/
def Repeats (info : KcpInfo) (now : ℕ) : Prop :=
  let kcptick := now - info.sendtick
  if info.state = .getTranId then
    (info.handShake = 0 ∧ kcptick > SYNTICKD) ∨ (info.handShake = 1 ∧ kcptick > SYNTICKT) ∨
      (info.handShake = 2 ∧ kcptick > MaxConTick)
  else (info.handShake = 0 ∧ kcptick > SYNTICK) ∨ (info.handShake = 1 ∧ kcptick > SYNTICKD)

/-- A handshake that this side began is still under way. -/
def Opening (info : KcpInfo) : Prop :=
  info.handShake < MAXHANDSHAKE ∧ (info.state = .syn ∨ info.state = .ack)

instance (info : KcpInfo) : Decidable (Opening info) := inferInstanceAs (Decidable (_ ∧ _))

/-- The pass frees a record: one that was given up, a silent client, a handshake or a request that
was repeated in vain, or a connection or registration of this side that was not heard of. -/
def Expires (info : KcpInfo) (automaticHeart : Bool) (now : ℕ) : Prop :=
  let kcptick := now - info.sendtick
  (info.state = .autoDisConnect ∨ info.state = .kckLost ∨
    (!info.sponsor ∧ kcptick > MaxHeartValue)) ∨
  if info.state = .getTranId then ¬Repeats info now ∧ info.handShake > 2
  else info.sponsor ∧
    if Opening info then
      kcptick > MaxConTick ∨ (¬Repeats info now ∧ info.handShake ≥ 2 ∧ kcptick > SYNTICKT)
    else ¬(automaticHeart ∧ info.state = .link ∧ kcptick > MinHeartValue) ∧
      now - info.rectick > MaxHeartValue

/-- Every record that the pass frees has a control block. -/
def FreesWhole (n : CKKkcp) (now : ℕ) : Prop :=
  ∀ x ∈ n.conIPInfoMap.map1.pairs, ∀ info ∈ n.heap x.2,
    Expires info n.automaticHeart now → info.kcp.isSome

/-- The clocks of a registration at a pass: one this side set up needs no heartbeat and was heard
of lately, another one was refreshed lately. -/
def Refreshed (info : KcpInfo) (now : ℕ) : Prop :=
  if info.sponsor then now - info.sendtick ≤ MinHeartValue ∧ now - info.rectick ≤ MaxHeartValue
  else now - info.sendtick ≤ MaxHeartValue

/-- The pass comes in time for all registrations, over a table that is in order, and does not fail
at another record. -/
def InTime (n : CKKkcp) : Event → Prop
  | .connMgrPass now => ∀ x ∈ n.conIPInfoMap.map1.pairs, ∀ info ∈ n.heap x.2,
      info.state = .tranIdOk → n.Keyed ∧ n.FreesWhole now ∧ Refreshed info now
  | _ => True

instance (n : CKKkcp) : Decidable n.Keyed := inferInstanceAs (Decidable (∀ _ ∈ _, _ = _))

instance (info : KcpInfo) (now : ℕ) : Decidable (Repeats info now) := by
  unfold Repeats
  infer_instance

instance (info : KcpInfo) (automaticHeart : Bool) (now : ℕ) :
    Decidable (Expires info automaticHeart now) := by
  unfold Expires
  infer_instance

instance (n : CKKkcp) (now : ℕ) : Decidable (n.FreesWhole now) :=
  inferInstanceAs (Decidable (∀ _ ∈ _, ∀ _ ∈ _, _ → _))

instance (info : KcpInfo) (now : ℕ) : Decidable (Refreshed info now) := by
  unfold Refreshed
  infer_instance

instance (n : CKKkcp) : ∀ e, Decidable (n.InTime e)
  | .connMgrPass _ => inferInstanceAs (Decidable (∀ _ ∈ _, ∀ _ ∈ _, _ → _ ∧ _ ∧ _))
  | .connect .. | .connectBy .. | .connectTranServer .. | .disConnect .. | .disConnectFrom ..
  | .stablySend .. | .handleCmd | .control .. | .tranId .. | .kcp .. => isTrue trivial

variable {n n' m : CKKkcp} {now p q : ℕ} {info : KcpInfo} {k key : String} {fuel : ℕ}
  {it : Option String} {e : Event}

/-! ### The turns of a pass -/

/-- A rule for what holds of the node and the iterator during a pass. -/
theorem passFrom_rule {P : CKKkcp → Option String → Prop}
    (hstep : ∀ m key q r, P m (some key) → m.conIPInfoMap.key1Find key = some q →
      m.manage now q = some r → P r.1 (r.2.getD (r.1.conIPInfoMap.map1.next key)))
    (hP : P n it) (h : passFrom fuel n now it = some n') : ∃ it', P n' it' := by
  induction fuel generalizing n it with
  | zero => exact ⟨it, Option.some.inj h ▸ hP⟩
  | succ fuel ih =>
    cases it with
    | none => exact ⟨none, Option.some.inj h ▸ hP⟩
    | some key =>
      obtain ⟨q, hq, h⟩ := Option.bind_eq_some_iff.mp h
      obtain ⟨r, hr, h⟩ := Option.bind_eq_some_iff.mp h
      exact ih (hstep n key q r hP hq hr) h

/-- A turn changes one record, and the iterator moves on to the next key. -/
structure Turned (m : CKKkcp) (key : String) (q : ℕ) (r : CKKkcp × Option (Option String)) :
    Prop where
  next : r.2.getD (r.1.conIPInfoMap.map1.next key) = m.conIPInfoMap.map1.next key
  pairs : r.1.conIPInfoMap.map1.pairs.Sublist m.conIPInfoMap.map1.pairs
  others : ∀ j ≠ key, r.1.conIPInfoMap.key1Find j = m.conIPInfoMap.key1Find j
  heap : ∀ p ≠ q, r.1.heap p = m.heap p
  sent : m.sent <+: r.1.sent
  automaticHeart : r.1.automaticHeart = m.automaticHeart
  keyed : r.1.Keyed

theorem Keyed.key_eq (hk : m.Keyed) (hp : m.conIPInfoMap.key1Find k = some p)
    (hi : m.heap p = some info) : info.addr.toString = k := by
  simpa [hi] using hk (k, p) (StdMap.mem_pairs_of_find hp)

theorem Keyed.turned (hk : m.Keyed) (hq : m.conIPInfoMap.key1Find key = some q)
    {r : CKKkcp × Option (Option String)} (hr : m.manage now q = some r) : Turned m key q r := by
  obtain ⟨info, hi, hm⟩ := manage_cases hr
  have hkey : info.addr.toString = key := hk.key_eq hq hi
  cases hm with
  | keep a b i ds hd =>
    refine ⟨rfl, .refl _, fun _ _ => rfl, fun p hp => setInfo_heap_ne m hp _,
      List.prefix_append .., rfl, fun x hx => ?_⟩
    by_cases hxq : x.2 = q
    · have hx := hk x hx
      rw [hxq, hi] at hx
      rw [hxq, setInfo_heap_self]
      exact hx
    · rw [setInfo_heap_ne m hxq]
      exact hk x hx
  | free =>
    have hq' : m.conIPInfoMap.key1Find info.addr.toString = some q := by rw [hkey]; exact hq
    have hmap : (m.freed q info true).conIPInfoMap.map1 = m.conIPInfoMap.map1.erase key := by
      rw [freed_conIPInfoMap, TwoKeyMap.map1_key1Del hq', hkey]
    refine ⟨?_, ?_, fun j hj => ?_, fun p hp => ?_, ?_, ?_, fun x hx => ?_⟩
    · rw [Option.getD_some, TwoKeyMap.key1Del_next hq', hkey]
    · rw [hmap]
      exact List.filter_sublist
    · rw [freed_conIPInfoMap, TwoKeyMap.key1Find_key1Del, hkey, if_neg hj]
    · rw [freed_heap, Function.update_of_ne hp]
    · exact (freed_sent ..).symm ▸ List.prefix_rfl
    · rfl
    · rw [hmap] at hx
      obtain ⟨hx, hne⟩ := List.mem_filter.mp hx
      have hxq : x.2 ≠ q := by
        intro hxq
        have hx := hk x hx
        rw [hxq, hi, Option.map_some, Option.some.injEq, hkey] at hx
        simp [hx] at hne
      rw [freed_heap, Function.update_of_ne hxq]
      exact hk x hx

/-- A turn fails only where a record is freed that has no control block. -/
theorem manage_isSome_iff (hi : n.heap p = some info) (now : ℕ) :
    (n.manage now p).isSome ↔ (Expires info n.automaticHeart now → info.kcp.isSome) := by
  have hfree : ((n.freeKcpInfo p true).map fun r => (r.1, some r.2)).isSome = info.kcp.isSome := by
    rw [freeKcpInfo_eq hi, Option.isSome_map, Option.isSome_map]
  have htimed : (((n.setInfo p { info with
      handShake := 0, sendtick := now, rectick := now }).freeKcpInfo p true).map
        fun r => (r.1, some r.2)).isSome = info.kcp.isSome := by
    rw [freeKcpInfo_eq (setInfo_heap_self ..), Option.isSome_map, Option.isSome_map]
  unfold manage Expires Repeats Opening
  simp only [hi, Option.bind_eq_bind, Option.bind_some]
  split_ifs <;> simp_all

/-- What the pass frees from a key on has control blocks. -/
def FreesWholeFrom (m : CKKkcp) (now : ℕ) (key : String) : Prop :=
  ∀ x ∈ m.conIPInfoMap.map1.pairs, key ≤ x.1 → ∀ info ∈ m.heap x.2,
    Expires info m.automaticHeart now → info.kcp.isSome

/-- The records behind the one whose turn it is are what they were. -/
theorem FreesWholeFrom.turned (h : m.FreesWholeFrom now key) (hk : m.Keyed)
    (hq : m.conIPInfoMap.key1Find key = some q) {r : CKKkcp × Option (Option String)}
    (ht : Turned m key q r) (hlt : key < k) : r.1.FreesWholeFrom now k := by
  intro x hx hle info hi
  have hx := ht.pairs.subset hx
  have hne : x.2 ≠ q := by
    rintro rfl
    obtain ⟨i, hi', hkey⟩ := Option.map_eq_some_iff.mp (hk x hx)
    exact (hlt.trans_le hle).ne ((hk.key_eq hq hi').symm.trans hkey)
  have hi : m.heap x.2 = some info := (ht.heap x.2 hne).symm.trans hi
  rw [ht.automaticHeart]
  exact h x hx (hlt.le.trans hle) info hi

/-- Over a table in order the pass comes to its end if what it frees has control blocks. -/
theorem Keyed.passFrom_isSome (hk : m.Keyed)
    (hit : ∀ key ∈ it, (m.conIPInfoMap.key1Find key).isSome ∧ m.FreesWholeFrom now key) :
    ∃ n', passFrom fuel m now it = some n' := by
  induction fuel generalizing m it with
  | zero => exact ⟨m, rfl⟩
  | succ fuel ih =>
    cases it with
    | none => exact ⟨m, rfl⟩
    | some key =>
      obtain ⟨hfind, hwhole⟩ := hit key rfl
      obtain ⟨q, hq⟩ := Option.isSome_iff_exists.mp hfind
      have hmem := StdMap.mem_pairs_of_find hq
      obtain ⟨info, hi, -⟩ := Option.map_eq_some_iff.mp (hk (key, q) hmem)
      obtain ⟨r, hr⟩ := Option.isSome_iff_exists.mp
        ((manage_isSome_iff hi now).mpr (hwhole (key, q) hmem le_rfl info hi))
      have ht := hk.turned hq hr
      have hnext : ∀ j ∈ r.2.getD (r.1.conIPInfoMap.map1.next key),
          (r.1.conIPInfoMap.key1Find j).isSome ∧ r.1.FreesWholeFrom now j := by
        intro j hj
        rw [ht.next] at hj
        obtain ⟨hlt, hfound⟩ := StdMap.find_next hj
        rw [ht.others j hlt.ne']
        exact ⟨hfound, hwhole.turned hk hq ht hlt⟩
      obtain ⟨n', hn⟩ := ih ht.keyed hnext
      refine ⟨n', ?_⟩
      rw [passFrom, hq]
      simp only [Option.bind_eq_bind, Option.bind_some, hr]
      exact hn

theorem Keyed.connMgrPass_isSome (hk : n.Keyed) (hw : n.FreesWhole now) :
    ∃ n', n.connMgrPass now = some n' := by
  refine hk.passFrom_isSome fun key hkey => ?_
  obtain ⟨x, hx, rfl⟩ := Option.map_eq_some_iff.mp hkey
  exact ⟨Option.isSome_iff_exists.mpr ⟨x.2, StdMap.find_begin hx⟩, fun y hy _ => hw y hy⟩

/-- The pairs from a key on. -/
def rest (m : CKKkcp) (key : String) : List (String × ℕ) :=
  m.conIPInfoMap.map1.pairs.filter fun x => key ≤ x.1

/-- The rest gets shorter with every turn. -/
theorem rest_lt (hq : m.conIPInfoMap.key1Find key = some q) (hlt : key < k)
    (hs : n.conIPInfoMap.map1.pairs.Sublist m.conIPInfoMap.map1.pairs) :
    (n.rest k).length < (m.rest key).length := by
  have hrest : m.rest k = (m.rest key).filter fun x => k ≤ x.1 := by
    rw [rest, rest, List.filter_filter]
    refine List.filter_congr fun x _ => ?_
    have := hlt.le.trans (b := k) (c := x.1)
    simpa using this
  have hshort : ((m.rest key).filter fun x => k ≤ x.1).length < (m.rest key).length :=
    List.length_filter_lt_length_iff_exists.mpr ⟨(key, q),
      List.mem_filter.mpr ⟨StdMap.mem_pairs_of_find hq, by simp⟩, by simpa using hlt⟩
  rw [← hrest] at hshort
  exact (hs.filter _).length_le.trans_lt hshort

/-- The rest of the pass leaves the record alone. -/
theorem passFrom_behind (hk : n.Keyed) (hit : ∀ key ∈ it, k < key)
    (hp : ∀ j, k < j → n.conIPInfoMap.key1Find j ≠ some p)
    (h : passFrom fuel n now it = some n') : n'.heap p = n.heap p ∧ n.sent <+: n'.sent := by
  obtain ⟨-, -, -, -, hheap, hsent⟩ := passFrom_rule (P := fun m it => m.Keyed ∧
      (∀ key ∈ it, k < key) ∧ (∀ j, k < j → m.conIPInfoMap.key1Find j ≠ some p) ∧
      m.heap p = n.heap p ∧ n.sent <+: m.sent)
    (fun m key q r hP hq hr => by
      obtain ⟨hk, hit, hp, hheap, hsent⟩ := hP
      have ht := hk.turned hq hr
      have hlt : k < key := hit key rfl
      have hqp : p ≠ q := by
        rintro rfl
        exact hp key hlt hq
      refine ⟨ht.keyed, fun j hj => ?_, fun j hj hjp => ?_, (ht.heap p hqp).trans hheap,
        hsent.trans ht.sent⟩
      · rw [ht.next] at hj
        exact hlt.trans (StdMap.find_next hj).1
      · have hmem := ht.pairs.subset (StdMap.mem_pairs_of_find hjp)
        exact hp j hj (StdMap.find_of_mem_pairs hmem)) ⟨hk, hit, hp, rfl, List.prefix_rfl⟩ h
  exact ⟨hheap, hsent⟩

/-- Every record has its turn, and is what it made of it in the end. -/
theorem passFrom_turn (hk : m.Keyed) (hp : m.conIPInfoMap.key1Find k = some p)
    (hi : m.heap p = some info) (hle : key ≤ k) (hf : (m.rest key).length ≤ fuel)
    (h : passFrom fuel m now (some key) = some n') :
    ∃ (m' : CKKkcp) (r : CKKkcp × Option (Option String)), m'.heap p = some info ∧
      m'.automaticHeart = m.automaticHeart ∧ m'.manage now p = some r ∧ m.sent <+: m'.sent ∧
      r.1.sent <+: n'.sent ∧ n'.heap p = r.1.heap p := by
  induction fuel generalizing m key with
  | zero =>
    have hmem : (k, p) ∈ m.rest key :=
      List.mem_filter.mpr ⟨StdMap.mem_pairs_of_find hp, by simpa using hle⟩
    rw [List.length_eq_zero_iff.mp (Nat.le_zero.mp hf)] at hmem
    cases hmem
  | succ fuel ih =>
    obtain ⟨q, hq, h1⟩ := Option.bind_eq_some_iff.mp h
    obtain ⟨r, hr, h2⟩ := Option.bind_eq_some_iff.mp h1
    clear h h1
    change passFrom fuel r.1 now (r.2.getD (r.1.conIPInfoMap.map1.next key)) = some n' at h2
    have ht := hk.turned hq hr
    have hkey : info.addr.toString = k := hk.key_eq hp hi
    rcases hle.eq_or_lt with rfl | hlt
    · obtain rfl : p = q := Option.some.inj (hp.symm.trans hq)
      have hbehind := passFrom_behind (k := key) (p := p) ht.keyed (fun j hj => ?_) (fun j hj hjp => ?_) h2
      · exact ⟨m, r, hi, rfl, hr, List.prefix_rfl, hbehind.2, hbehind.1⟩
      · rw [ht.next] at hj
        exact (StdMap.find_next hj).1
      · have hmem := ht.pairs.subset (StdMap.mem_pairs_of_find hjp)
        exact hj.ne (hkey.symm.trans (hk.key_eq (StdMap.find_of_mem_pairs hmem) hi))
    · -- the iterator does not step over the record
      obtain ⟨j, hj, hjk⟩ := StdMap.next_le hp hlt
      have hqp : p ≠ q := by
        rintro rfl
        exact hlt.ne ((hk.key_eq hq hi).symm.trans hkey)
      have hshorter : (r.1.rest j).length ≤ fuel := by
        have := rest_lt hq (StdMap.find_next hj).1 ht.pairs
        omega
      rw [ht.next, hj] at h2
      obtain ⟨m', r', hi', hauto, hr', hs, hs', hheap⟩ := ih ht.keyed
        (by rw [ht.others k hlt.ne']; exact hp) (by rw [ht.heap p hqp]; exact hi) hjk hshorter h2
      exact ⟨m', r', hi', hauto.trans ht.automaticHeart, hr', ht.sent.trans hs, hs', hheap⟩

theorem connMgrPass_turn (hk : n.Keyed) (hp : n.conIPInfoMap.key1Find k = some p)
    (hi : n.heap p = some info) (h : n.connMgrPass now = some n') :
    ∃ (m : CKKkcp) (r : CKKkcp × Option (Option String)), m.heap p = some info ∧
      m.automaticHeart = n.automaticHeart ∧ m.manage now p = some r ∧ n.sent <+: m.sent ∧
      r.1.sent <+: n'.sent ∧ n'.heap p = r.1.heap p := by
  obtain ⟨x, hx, hle⟩ := StdMap.begin_le hp
  rw [connMgrPass, TwoKeyMap.key1begin, hx, Option.map_some] at h
  refine passFrom_turn hk hp hi hle ?_ h
  have hlen : (n.rest x.1).length ≤ n.conIPInfoMap.map1.pairs.length := List.length_filter_le ..
  exact hlen.trans ((Nat.le_succ _).trans (Nat.le_self_pow (by decide) _))

/-- Over a table in order the pass comes to its end if and only if what it frees has control
blocks. -/
theorem Keyed.freesWhole_iff (hk : n.Keyed) : n.FreesWhole now ↔ (n.connMgrPass now).isSome := by
  constructor
  · intro hw
    exact Option.isSome_iff_exists.mpr (hk.connMgrPass_isSome hw)
  · intro hsome x hx info hi
    obtain ⟨n', hn⟩ := Option.isSome_iff_exists.mp hsome
    obtain ⟨m, r, him, hauto, hr, -⟩ := connMgrPass_turn hk (StdMap.find_of_mem_pairs hx) hi hn
    rw [← hauto]
    exact (manage_isSome_iff him now).mp (by rw [hr]; rfl)

/-! ### The turn of a registration -/

/-- The heartbeat is that of a record that was set up by the other side. -/
theorem manage_tranIdOk (hi : n.heap p = some info) (hs : info.state = .tranIdOk) :
    n.manage now p =
      if info.sponsor then
        if now - info.rectick > MaxHeartValue then (n.freeKcpInfo p true).map fun r => (r.1, some r.2)
        else some (n, none)
      else if now - info.sendtick > MaxHeartValue then
        (n.freeKcpInfo p true).map fun r => (r.1, some r.2)
      else if now - info.sendtick > MinHeartValue then
        some ((n.setInfo p { info with sendtick := now }).kksend
          { dest := info.addr, body := .tranHeart }, none)
      else some (n, none) := by
  unfold manage
  cases hsp : info.sponsor with
  | true => simp [hi, hs, hsp]
  | false =>
    by_cases hmax : now - info.sendtick > MaxHeartValue
    · simp [hi, hs, hsp, hmax]
    · simp [hi, hs, hsp, hmax]

/-- A pass keeps a registration alive if and only if it comes in time for it. -/
theorem keepsRegistration_iff (hk : n.Keyed) (hp : n.conIPInfoMap.key1Find k = some p)
    (hi : n.heap p = some info) (hs : info.state = .tranIdOk) (h : n.connMgrPass now = some n') :
    KeepsRegistration n n' now p info ↔ Refreshed info now := by
  obtain ⟨m, r, him, -, hr, hsent, hsent', hheap⟩ := connMgrPass_turn hk hp hi h
  have hfree (hrm : (m.freeKcpInfo p true).map (fun r => (r.1, some r.2)) = some r) :
      r.1 = m.freed p info true := by
    obtain ⟨r', hr', rfl⟩ := Option.map_eq_some_iff.mp hrm
    rw [(freeKcpInfo_cases him hr').2]
  rw [manage_tranIdOk him hs] at hr
  have hmin : MinHeartValue = 5000 := rfl
  have hmax : MaxHeartValue = 60000 := rfl
  -- a record that is left alone was neither freed nor refreshed
  have hsame (hrm : r.1 = m) : KeepsRegistration n n' now p info ↔
      now - info.sendtick ≤ MinHeartValue := by
    rw [hrm, him] at hheap
    constructor
    · rintro ⟨-, hheart⟩
      by_contra hlt
      have := (hheart (by omega)).2
      simp only [hheap, Option.map_some, Option.some.injEq] at this
      omega
    · intro hle
      exact ⟨by simp [hheap], fun hlt => by omega⟩
  have hgone (hrm : r.1 = m.freed p info true) : ¬KeepsRegistration n n' now p info := by
    rintro ⟨hstays, -⟩
    rw [hrm, freed_heap, Function.update_self] at hheap
    exact hstays hheap
  unfold Refreshed
  split_ifs at hr ⊢ with hsp hrec hsend hheart
  · exact iff_of_false (hgone (hfree hr)) fun hle => by omega
  · cases hr
    rw [hsame rfl]
    omega
  · exact iff_of_false (hgone (hfree hr)) (by omega)
  · cases hr
    refine iff_of_true ⟨?_, fun _ => ⟨?_, ?_⟩⟩ (by omega)
    · rw [hheap]
      simp [kksend]
    · -- the heartbeat was appended to what was sent before
      obtain ⟨before, hbefore⟩ := hsent
      obtain ⟨after, hafter⟩ := hsent'
      rw [← hafter]
      simp [kksend, setInfo, ← hbefore]
    · rw [hheap]
      simp [kksend]
  · cases hr
    rw [hsame rfl]
    omega

/-- Over a table in order a pass keeps the registrations alive if and only if it comes in time for
each of them and does not fail. -/
theorem keepsRelays_iff (hk : n.Keyed) (now : ℕ) : n.KeepsRelays (.connMgrPass now) ↔
    ∀ x ∈ n.conIPInfoMap.map1.pairs, ∀ info ∈ n.heap x.2, info.state = .tranIdOk →
      n.FreesWhole now ∧ Refreshed info now := by
  refine forall₂_congr fun x hx => forall₂_congr fun info hi => forall_congr' fun hs => ?_
  have hiff {n'} (hn : n.connMgrPass now = some n') :
      KeepsRegistration n n' now x.2 info ↔ Refreshed info now :=
    keepsRegistration_iff hk (StdMap.find_of_mem_pairs hx) hi hs hn
  constructor
  · rintro ⟨n', hn, hkeep⟩
    exact ⟨hk.freesWhole_iff.mpr (Option.isSome_iff_exists.mpr ⟨n', hn⟩), (hiff hn).mp hkeep⟩
  · rintro ⟨hwhole, hfresh⟩
    obtain ⟨n', hn⟩ := hk.connMgrPass_isSome hwhole
    exact ⟨n', hn, (hiff hn).mpr hfresh⟩

/-! ### Runs -/

variable {inetAddr : String → UInt32}

theorem InTime.keepsRelays (h : n.InTime e) : n.KeepsRelays e := by
  cases e with
  | connMgrPass now =>
    intro x hx info hi hs
    obtain ⟨hk, hrest⟩ := h x hx info hi hs
    exact (keepsRelays_iff hk now).mpr (fun y hy i hi hs => (h y hy i hi hs).2) x hx info hi hs
  | _ => trivial

end KkLicode.Kcp.CKKkcp
