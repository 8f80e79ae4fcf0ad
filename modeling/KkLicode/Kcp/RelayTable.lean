import Mathlib.Data.Finset.Card
import Mathlib.Data.Finset.Range
import KkLicode.Base.Decimal
import KkLicode.Kcp.Forwarding
import KkLicode.Kcp.TwoKeyRuns

/-! The table of the relay. As long as the search for a free id ends, every datagram
is handled, the table has each client under its address and under its id, and a
message goes to the one client that is registered under the id. -/

namespace KkLicode.Kcp

open Base

/-- The four numbers that are rendered make up the address. -/
theorem toNat_eq_octets (ip : UInt32) : ip.toNat = (ip >>> 24).toNat * 2 ^ 24 +
    ((ip >>> 16) &&& 255).toNat * 2 ^ 16 + ((ip >>> 8) &&& 255).toNat * 2 ^ 8 + (ip &&& 255).toNat := by
  have h := ip.toNat_lt
  have hand (k : ℕ) : k &&& 255 = k % 256 := Nat.and_two_pow_sub_one_eq_mod k 8
  simp only [UInt32.toNat_and, UInt32.toNat_shiftRight, UInt32.reduceToNat, hand,
    Nat.shiftRight_eq_div_pow, Nat.reduceMod, Nat.reducePow]
  omega

theorem toList_dotted (ip : UInt32) : (dotted ip).toList =
    Nat.toDigits 10 (ip >>> 24).toNat ++ '.' :: (Nat.toDigits 10 ((ip >>> 16) &&& 255).toNat ++
      '.' :: (Nat.toDigits 10 ((ip >>> 8) &&& 255).toNat ++
        '.' :: Nat.toDigits 10 (ip &&& 255).toNat)) := by
  simp [dotted, Nat.toString_eq_repr, Nat.toList_repr]

theorem dotted_append_inj {ip ip' : UInt32} {x y : List Char} :
    (dotted ip).toList ++ '|' :: x = (dotted ip').toList ++ '|' :: y ↔ ip = ip' ∧ x = y := by
  refine ⟨fun h => ?_, fun ⟨h, h'⟩ => h ▸ h' ▸ rfl⟩
  have hdot : '.'.isDigit = false := by decide
  have hbar : '|'.isDigit = false := by decide
  simp only [toList_dotted, List.append_assoc, List.cons_append] at h
  rw [Decimal.toDigits_append_cons_inj hdot, Decimal.toDigits_append_cons_inj hdot,
    Decimal.toDigits_append_cons_inj hdot, Decimal.toDigits_append_cons_inj hbar] at h
  obtain ⟨h1, h2, h3, h4, hxy⟩ := h
  refine ⟨UInt32.toNat_inj.mp ?_, hxy⟩
  rw [toNat_eq_octets ip, h1, h2, h3, h4, ← toNat_eq_octets ip']

theorem KKAddress.toList_toString {a : KKAddress} (h : a.destTranId = 0) :
    a.toString.toList = (dotted a.ip).toList ++ '|' :: Nat.toDigits 10 a.port.toNat := by
  simp [KKAddress.toString, toString2, h, Nat.toString_eq_repr, Nat.toList_repr]

/-- Addresses without a relay id are told apart by what they render. -/
theorem KKAddress.toString_inj {a b : KKAddress} (ha : a.destTranId = 0) (hb : b.destTranId = 0) :
    a.toString = b.toString ↔ a = b := by
  refine ⟨fun h => ?_, fun h => h ▸ rfl⟩
  have hl := congrArg String.toList h
  rw [toList_toString ha, toList_toString hb, dotted_append_inj, Decimal.toDigits_inj,
    UInt16.toNat_inj] at hl
  obtain ⟨ip, port, destTranId⟩ := a
  obtain ⟨ip', port', destTranId'⟩ := b
  simp_all

namespace CKKTranServer

variable {s s' : CKKTranServer} {now : UInt64} {addr : KKAddress} {p q : ℕ} {info : TranInfo}
  {e : RelayEvent}

/-! ### The search for an id -/

theorem toNat_nextId {id : UInt32} (h : id.toNat < 65535) :
    (nextId id).toNat = (id.toNat + 1) % 65535 := by
  have hadd : (id + 1).toNat = id.toNat + 1 := by
    rw [UInt32.toNat_add, UInt32.toNat_one]
    omega
  unfold nextId
  split_ifs with hg
  · rw [gt_iff_lt, UInt32.lt_iff_toNat_lt, hadd] at hg
    have : (0xfffe : UInt32).toNat = 65534 := rfl
    simp only [UInt32.toNat_zero]
    omega
  · rw [gt_iff_lt, UInt32.lt_iff_toNat_lt, hadd] at hg
    have : (0xfffe : UInt32).toNat = 65534 := rfl
    rw [hadd]
    omega

/-- The ids the search looks at. -/
theorem freeId_eq_none_iff {fuel : ℕ} {idSet : List UInt32} {id : UInt32} (h : id.toNat < 65535) :
    freeId fuel idSet id = none ↔
      ∀ i < fuel, UInt32.ofNat ((id.toNat + i) % 65535) ∈ idSet := by
  induction fuel generalizing id with
  | zero => simp [freeId]
  | succ fuel ih =>
    have hnext := toNat_nextId h
    have hlt : (nextId id).toNat < 65535 := by omega
    have hself : UInt32.ofNat ((id.toNat + 0) % 65535) = id := by
      rw [Nat.add_zero, Nat.mod_eq_of_lt h, UInt32.ofNat_toNat]
    have hshift (i : ℕ) : ((nextId id).toNat + i) % 65535 = (id.toNat + (i + 1)) % 65535 := by omega
    unfold freeId
    split_ifs with hm
    · rw [ih hlt]
      simp only [hshift]
      constructor
      · rintro hi (_ | i) hlt
        · rwa [hself]
        · exact hi i (by omega)
      · exact fun hi i hlt => hi (i + 1) (by omega)
    · simp only [false_iff]
      exact fun hi => hm (hself ▸ hi 0 (by omega))

/-- The search for an id ends if one of the 65535 ids was never given out. -/
theorem findId_eq_none_iff (h : s.id.toNat < 65535) :
    s.findId = none ↔ ∀ id : UInt32, id.toNat < 65535 → id ∈ s.idSet := by
  rw [findId, freeId_eq_none_iff h]
  constructor
  · intro hi id hid
    have := hi ((id.toNat + 65535 - s.id.toNat) % 65535) (Nat.mod_lt _ (by decide))
    have he : (s.id.toNat + (id.toNat + 65535 - s.id.toNat) % 65535) % 65535 = id.toNat := by omega
    rwa [he, UInt32.ofNat_toNat] at this
  · intro hi i _
    have hlt : (s.id.toNat + i) % 65535 < 65535 := Nat.mod_lt _ (by decide)
    apply hi
    rwa [UInt32.toNat_ofNat_of_lt' (hlt.trans (by decide))]

theorem freeId_spec {fuel : ℕ} {idSet : List UInt32} {id id' : UInt32} (h : id.toNat < 65535)
    (hid : freeId fuel idSet id = some id') : id' ∉ idSet ∧ id'.toNat < 65535 := by
  induction fuel generalizing id with
  | zero => cases hid
  | succ fuel ih =>
    unfold freeId at hid
    split_ifs at hid with hm
    · have hnext := toNat_nextId h
      exact ih (by omega) hid
    · cases hid
      exact ⟨hm, h⟩

/-! ### The table -/

structure Wf (s : CKKTranServer) : Prop where
  agrees : s.tranInfoMap.Agrees
  paired : ∀ p k1 k2, s.tranInfoMap.map3.find p = some (k1, k2) →
    s.tranInfoMap.map2.find k2 = some p
  record : ∀ p k1 k2, s.tranInfoMap.map3.find p = some (k1, k2) →
    ∃ info, s.heap p = some info ∧ info.addr.toString = k1 ∧ info.id = k2 ∧ info.addr.destTranId = 0
  known : ∀ p k1 k2, s.tranInfoMap.map3.find p = some (k1, k2) → p < s.allocated ∧ k2 ∈ s.idSet
  id_lt : s.id.toNat < 65535

theorem Wf.start (recBuf : RecBuf) : Wf (start recBuf) where
  agrees := TwoKeyMap.Agrees.empty
  paired p k1 k2 h := by cases h
  record p k1 k2 h := by cases h
  known p k1 k2 h := by cases h
  id_lt := show (1 : UInt32).toNat < 65535 by decide

/-- The relay without a record. -/
def freed (s : CKKTranServer) (p : ℕ) (info : TranInfo) : CKKTranServer :=
  { s with
    tranInfoMap := (s.tranInfoMap.key1Del info.addr.toString).1
    heap := Function.update s.heap p none }

theorem freeTranInfo_eq (hi : s.heap p = some info)
    (hp : s.tranInfoMap.key1Find info.addr.toString = some p) :
    s.freeTranInfo p = some (s.freed p info, s.tranInfoMap.map1.next info.addr.toString) := by
  rw [TwoKeyMap.key1Find] at hp
  simp [freeTranInfo, freed, hi, TwoKeyMap.key1Del, hp]

namespace Wf

/-- What is sent and received does not matter. -/
theorem congr (h : Wf s) (hm : s'.tranInfoMap = s.tranInfoMap) (hh : s'.heap = s.heap)
    (ha : s'.allocated = s.allocated) (hs : s'.idSet = s.idSet) (hi : s'.id = s.id) : Wf s' where
  agrees := hm ▸ h.agrees
  paired := by simpa only [hm] using h.paired
  record := by simpa only [hm, hh] using h.record
  known := by simpa only [hm, ha, hs] using h.known
  id_lt := hi ▸ h.id_lt

theorem kksend (h : Wf s) (buf : List UInt8) : Wf (s.kksend buf addr) := h.congr rfl rfl rfl rfl rfl

theorem setTick (h : Wf s) (hi : s.heap p = some info) (tick : UInt64) :
    Wf (s.setInfo p { info with tick := tick }) where
  agrees := h.agrees
  paired := h.paired
  record q k1 k2 hq := by
    obtain ⟨i, hi', hr⟩ := h.record q k1 k2 hq
    by_cases hqp : q = p
    · subst hqp
      rw [hi, Option.some.injEq] at hi'
      subst hi'
      exact ⟨_, Function.update_self .., hr⟩
    · exact ⟨i, (Function.update_of_ne hqp ..).trans hi', hr⟩
  known := h.known
  id_lt := h.id_lt

/-- A key of the first map is the address of a record that is under its id, too. -/
theorem entry (h : Wf s) {k : String} (hp : s.tranInfoMap.key1Find k = some p) :
    ∃ info, s.heap p = some info ∧ info.addr.toString = k ∧ info.addr.destTranId = 0 ∧
      s.tranInfoMap.key2Find info.id = some p := by
  obtain ⟨k2, h3⟩ := h.agrees.value1 k p hp
  obtain ⟨info, hi, hk, hid, hd⟩ := h.record p k k2 h3
  exact ⟨info, hi, hk, hd, hid ▸ h.paired p k k2 h3⟩

theorem entry2 (h : Wf s) {id : UInt32} (hp : s.tranInfoMap.key2Find id = some p) :
    ∃ info, s.heap p = some info ∧ info.id = id ∧ info.addr.destTranId = 0 ∧
      s.tranInfoMap.key1Find info.addr.toString = some p := by
  obtain ⟨k1, h3⟩ := h.agrees.value2 id p hp
  obtain ⟨info, hi, hk, hid, hd⟩ := h.record p k1 id h3
  exact ⟨info, hi, hid, hd, hk ▸ (h.agrees.keys p k1 id h3).1⟩

/-- The rendered address is the key the record is stored under, so it leaves all three maps. -/
theorem freed (h : Wf s) (hp : s.tranInfoMap.key1Find info.addr.toString = some p) :
    Wf (s.freed p info) := by
  have hexact : s.tranInfoMap.DelExact info.addr.toString := by
    rw [TwoKeyMap.delExact_iff h.agrees hp]
    intro j hj w hw
    exact Option.some.inj (hw.symm.trans (h.paired p j.1 j.2 hj))
  have hagrees := h.agrees.key1Del hexact
  unfold TwoKeyMap.DelExact at hexact
  rw [TwoKeyMap.key1Find] at hp
  simp only [hp] at hexact
  obtain ⟨-, f2, f3⟩ := hexact
  have map3_of {q : ℕ} {x : String × UInt32}
      (hq : (s.tranInfoMap.key1Del info.addr.toString).1.map3.find q = some x) :
      q ≠ p ∧ s.tranInfoMap.map3.find q = some x := by
    rw [f3] at hq
    split_ifs at hq with hqp
    exact ⟨hqp, hq⟩
  constructor
  · exact hagrees
  · intro q k1 k2 hq
    obtain ⟨hqp, hq⟩ := map3_of hq
    have h2 := h.paired q k1 k2 hq
    refine (f2 k2).trans ?_
    rw [if_neg, h2]
    rw [h2]
    exact fun he => hqp (Option.some.inj he)
  · intro q k1 k2 hq
    obtain ⟨hqp, hq⟩ := map3_of hq
    obtain ⟨i, hi', hr⟩ := h.record q k1 k2 hq
    exact ⟨i, (Function.update_of_ne hqp ..).trans hi', hr⟩
  · intro q k1 k2 hq
    exact h.known q k1 k2 (map3_of hq).2
  · exact h.id_lt

end Wf

/-- The relay with a new record. -/
def registered (s : CKKTranServer) (info : TranInfo) : CKKTranServer :=
  { s.setInfo s.allocated info with
    id := info.id
    idSet := info.id :: s.idSet
    allocated := s.allocated + 1
    tranInfoMap := s.tranInfoMap.insert info.addr.toString info.id s.allocated }

/-- The id of a new record was never given out, so all its keys are new. -/
theorem Wf.registered (h : Wf s) (hk : s.tranInfoMap.key1Find info.addr.toString = none)
    (hid : info.id ∉ s.idSet) (hlt : info.id.toNat < 65535) (hd : info.addr.destTranId = 0) :
    Wf (s.registered info) := by
  have h3 : s.tranInfoMap.map3.find s.allocated = none := by
    by_contra hs
    obtain ⟨x, hx⟩ := Option.ne_none_iff_exists'.mp hs
    exact absurd (h.known _ x.1 x.2 hx).1 (lt_irrefl _)
  have h2 : s.tranInfoMap.map2.find info.id = none := by
    by_contra hs
    obtain ⟨q, hq⟩ := Option.ne_none_iff_exists'.mp hs
    obtain ⟨k1, hq⟩ := h.agrees.value2 _ q hq
    exact hid (h.known q k1 _ hq).2
  have map3_of {q : ℕ} {k1 : String} {k2 : UInt32}
      (hq : (s.registered info).tranInfoMap.map3.find q = some (k1, k2)) :
      (q = s.allocated ∧ k1 = info.addr.toString ∧ k2 = info.id) ∨
        (q ≠ s.allocated ∧ s.tranInfoMap.map3.find q = some (k1, k2)) := by
    have hq := (StdMap.find_assign ..).symm.trans hq
    split_ifs at hq with hqa
    · obtain ⟨hk1, hk2⟩ := Prod.mk.inj (Option.some.inj hq)
      exact .inl ⟨hqa, hk1.symm, hk2.symm⟩
    · exact .inr ⟨hqa, hq⟩
  constructor
  · refine (TwoKeyMap.agrees_insert_iff h.agrees).mpr ⟨⟨?_, ?_⟩, .inr ?_, ?_⟩
    · intro w hw
      exact absurd (hk.symm.trans hw) (by simp)
    · intro j hj
      exact absurd (h3.symm.trans hj) (by simp)
    · intro w hw
      exact absurd (h2.symm.trans hw) (by simp)
    · intro j hj
      exact absurd (h3.symm.trans hj) (by simp)
  · intro q k1 k2 hq
    refine (StdMap.find_insert_eq_some ..).mpr ?_
    rcases map3_of hq with ⟨rfl, rfl, rfl⟩ | ⟨-, hq⟩
    · exact .inr ⟨h2, rfl, rfl⟩
    · exact .inl (h.paired q k1 k2 hq)
  · intro q k1 k2 hq
    rcases map3_of hq with ⟨rfl, rfl, rfl⟩ | ⟨hqa, hq⟩
    · exact ⟨info, Function.update_self .., rfl, rfl, hd⟩
    · obtain ⟨i, hi, hr⟩ := h.record q k1 k2 hq
      exact ⟨i, (Function.update_of_ne hqa ..).trans hi, hr⟩
  · intro q k1 k2 hq
    show q < s.allocated + 1 ∧ k2 ∈ info.id :: s.idSet
    rcases map3_of hq with ⟨rfl, rfl, rfl⟩ | ⟨hqa, hq⟩
    · exact ⟨Nat.lt_succ_self _, List.mem_cons_self⟩
    · obtain ⟨hlt, hmem⟩ := h.known q k1 k2 hq
      exact ⟨hlt.trans (Nat.lt_succ_self _), List.mem_cons_of_mem _ hmem⟩
  · exact hlt

/-! ### Steps -/

theorem touch_eq (hi : s.heap p = some info) :
    s.touch now p = some (s.setInfo p { info with tick := now }) := by
  simp [touch, hi]

section onForward

variable {buf : List UInt8} {dest : TranInfo}

theorem onForward_eq_unregistered (hp : s.tranInfoMap.key1Find addr.toString = none) :
    s.onForward now buf addr = some (s.sendNotifyCode UDPUNTRANID 0 addr) := by
  simp [onForward, hp]

theorem onForward_eq_undefined (hp : s.tranInfoMap.key1Find addr.toString = some p)
    (hi : s.heap p = some info) (hq : s.tranInfoMap.key2Find (ntohl buf 5) = none) :
    s.onForward now buf addr = some ((s.setInfo p { info with tick := now }).sendNotifyCode
      UDPUNDEFTRANID (ntohl buf 5) addr) := by
  simp [onForward, hp, touch_eq hi, setInfo, hq]

theorem onForward_eq_sent (hp : s.tranInfoMap.key1Find addr.toString = some p)
    (hi : s.heap p = some info) (hq : s.tranInfoMap.key2Find (ntohl buf 5) = some q)
    (hd : (s.setInfo p { info with tick := now }).heap q = some dest) :
    s.onForward now buf addr =
      some ((s.setInfo p { info with tick := now }).kksend buf dest.addr) := by
  have hq' : (s.setInfo p { info with tick := now }).tranInfoMap.key2Find (ntohl buf 5) = some q := hq
  simp [onForward, hp, touch_eq hi, hq', hd]

end onForward

namespace Wf

theorem onDelTranId (h : Wf s) : ∃ s', s.onDelTranId addr = some s' ∧ Wf s' := by
  unfold CKKTranServer.onDelTranId
  cases hp : s.tranInfoMap.key1Find addr.toString with
  | none => exact ⟨s, rfl, h⟩
  | some p =>
    obtain ⟨info, hi, hk, -⟩ := h.entry hp
    rw [← hk] at hp
    exact ⟨s.freed p info, by simp [freeTranInfo_eq hi hp], h.freed hp⟩

theorem onTranHeart (h : Wf s) : ∃ s', s.onTranHeart now addr = some s' ∧ Wf s' := by
  unfold CKKTranServer.onTranHeart
  cases hp : s.tranInfoMap.key1Find addr.toString with
  | none => exact ⟨s, rfl, h⟩
  | some p =>
    obtain ⟨info, hi, -⟩ := h.entry hp
    exact ⟨_, touch_eq hi, h.setTick hi now⟩

theorem onLookPreTran (h : Wf s) (buf : List UInt8) :
    ∃ s', s.onLookPreTran now buf addr = some s' ∧ Wf s' := by
  unfold CKKTranServer.onLookPreTran
  cases hp : s.tranInfoMap.key1Find addr.toString with
  | none => exact ⟨_, rfl, h.kksend _⟩
  | some p =>
    obtain ⟨info, hi, -⟩ := h.entry hp
    simp only [hi, Option.bind_eq_bind, Option.bind_some]
    exact ⟨_, rfl, ((h.setTick hi now).kksend _).kksend _⟩

theorem onForward (h : Wf s) (buf : List UInt8) :
    ∃ s', s.onForward now buf addr = some s' ∧ Wf s' := by
  cases hp : s.tranInfoMap.key1Find addr.toString with
  | none => exact ⟨_, onForward_eq_unregistered hp, h.kksend _⟩
  | some p =>
    obtain ⟨info, hi, -⟩ := h.entry hp
    have hw := h.setTick hi now
    cases hq : s.tranInfoMap.key2Find (ntohl buf 5) with
    | none => exact ⟨_, onForward_eq_undefined hp hi hq, hw.kksend _⟩
    | some q =>
      obtain ⟨dest, hd, -⟩ := hw.entry2 hq
      exact ⟨_, onForward_eq_sent hp hi hq hd, hw.kksend _⟩

theorem sweepFrom (h : Wf s) {fuel : ℕ} {it : Option String}
    (hit : ∀ k ∈ it, (s.tranInfoMap.key1Find k).isSome) :
    ∃ s', sweepFrom fuel s now it = some s' ∧ Wf s' := by
  induction fuel generalizing s it with
  | zero => exact ⟨s, rfl, h⟩
  | succ fuel ih =>
    cases it with
    | none => exact ⟨s, rfl, h⟩
    | some k =>
      obtain ⟨p, hp⟩ := Option.isSome_iff_exists.mp (hit k rfl)
      obtain ⟨info, hi, hk, -⟩ := h.entry hp
      subst hk
      simp only [CKKTranServer.sweepFrom, hp, hi, Option.bind_eq_bind, Option.bind_some]
      split_ifs
      · rw [freeTranInfo_eq hi hp]
        refine ih (h.freed hp) fun k hk => ?_
        obtain ⟨hlt, hs⟩ := StdMap.find_next hk
        rw [CKKTranServer.freed, TwoKeyMap.key1Find_key1Del, if_neg hlt.ne']
        exact hs
      · exact ih h fun k hk => (StdMap.find_next hk).2

theorem sweep (h : Wf s) : ∃ s', s.sweep now = some s' ∧ Wf s' := by
  refine h.sweepFrom fun k hk => ?_
  obtain ⟨x, hx, rfl⟩ := Option.map_eq_some_iff.mp hk
  exact Option.isSome_iff_exists.mpr ⟨x.2, StdMap.find_begin hx⟩

end Wf

theorem onGetTranId_eq_known (hp : s.tranInfoMap.key1Find addr.toString = some p)
    (hi : s.heap p = some info) : s.onGetTranId now addr =
      some ((s.setInfo p { info with tick := now }).sendTranId info.id addr) := by
  simp [onGetTranId, hp, hi]

theorem onGetTranId_eq_new (hp : s.tranInfoMap.key1Find addr.toString = none) :
    s.onGetTranId now addr = s.findId.map fun id =>
      (s.registered { addr := addr, id := id, tick := now }).sendTranId id addr := by
  cases hid : s.findId with
  | none => simp [onGetTranId, hp, hid]
  | some id => simp [onGetTranId, hp, hid, registered]

namespace Wf

/-- A client that is registered is told its id; another one is given an id if there is one left. -/
theorem onGetTranId (h : Wf s) (hd : addr.destTranId = 0)
    (hleft : s.tranInfoMap.key1Find addr.toString = none →
      ∃ id : UInt32, id.toNat < 65535 ∧ id ∉ s.idSet) :
    ∃ s', s.onGetTranId now addr = some s' ∧ Wf s' := by
  cases hp : s.tranInfoMap.key1Find addr.toString with
  | some p =>
    obtain ⟨info, hi, -⟩ := h.entry hp
    exact ⟨_, onGetTranId_eq_known hp hi, (h.setTick hi now).kksend _⟩
  | none =>
    obtain ⟨id, hid⟩ : ∃ id, s.findId = some id := by
      rw [← Option.ne_none_iff_exists', ne_eq, findId_eq_none_iff h.id_lt]
      obtain ⟨id, hlt, hmem⟩ := hleft hp
      exact fun hall => hmem (hall id hlt)
    obtain ⟨hmem, hlt⟩ := freeId_spec h.id_lt hid
    have hw : Wf (s.registered { addr := addr, id := id, tick := now }) :=
      h.registered hp hmem hlt hd
    rw [onGetTranId_eq_new hp, hid]
    exact ⟨_, rfl, hw.kksend _⟩

end Wf

/-- The datagram asks for an id for an address that has none. -/
def Registers (s : CKKTranServer) : RelayEvent → Prop
  | .idle _ => False
  | .datagram _ ip port data =>
    let buf := (s.recBuf.receive data).bytes
    let addr : KKAddress := ⟨ip, port, 0⟩
    data ≠ [] ∧ buf.getD 0 0 = 0xAC ∧ buf.getD 1 0 = UDPGETTRANID ∧
      s.tranInfoMap.key1Find addr.toString = none

/-- An id is left that was never given out if one is needed. -/
def IdsLeft (s : CKKTranServer) (e : RelayEvent) : Prop :=
  s.Registers e → ∃ id : UInt32, id.toNat < 65535 ∧ id ∉ s.idSet

theorem Wf.receive (h : Wf s) (data : List UInt8) :
    Wf { s with recBuf := s.recBuf.receive data } := h.congr rfl rfl rfl rfl rfl

/-- A step that has an id left is done, and keeps the table. -/
theorem Wf.step (h : Wf s) (hleft : s.IdsLeft e) : ∃ s', s.step e = some s' ∧ Wf s' := by
  cases e with
  | idle now => exact h.sweep
  | datagram now ip port data =>
    have hr := h.receive data
    unfold CKKTranServer.step
    dsimp only
    split_ifs with hd
    · exact hr.sweep
    · unfold onTranBufHandle
      dsimp only
      split_ifs with hac hdel hget hlook hheart had
      · exact hr.onDelTranId
      · exact hr.onGetTranId rfl fun hk => hleft ⟨hd, hac, hget, hk⟩
      · exact hr.onLookPreTran _
      · exact hr.onTranHeart
      · exact ⟨_, rfl, hr⟩
      · exact hr.onForward _
      · exact ⟨_, rfl, hr⟩

/-- The search for an id does not end without one. -/
theorem Wf.step_eq_none (h : Wf s) (hleft : ¬ s.IdsLeft e) : s.step e = none := by
  obtain ⟨hreg, hnone⟩ := Classical.not_imp.mp hleft
  cases e with
  | idle now => exact hreg.elim
  | datagram now ip port data =>
    obtain ⟨hd, hac, hget, hk⟩ := hreg
    have hid : s.findId = none := by
      rw [findId_eq_none_iff h.id_lt]
      intro id hlt
      by_contra hmem
      exact hnone ⟨id, hlt, hmem⟩
    have hid' : CKKTranServer.findId { s with recBuf := s.recBuf.receive data } = none := hid
    have hnew : CKKTranServer.onGetTranId { s with recBuf := s.recBuf.receive data } now
        ⟨ip, port, 0⟩ = _ := onGetTranId_eq_new hk
    rw [hid'] at hnew
    unfold CKKTranServer.step
    dsimp only
    rw [if_neg hd, onTranBufHandle]
    rw [if_pos hac, if_neg (by rw [hget]; decide), if_pos hget, hnew]
    rfl

/-! ### Service -/

/-- The clients that are registered. -/
def clients (s : CKKTranServer) : Set TranInfo :=
  {info | ∃ k p, s.tranInfoMap.key1Find k = some p ∧ s.heap p = some info}

/-- The ids of the clients differ, both maps lead to the client that is asked for, and a message to an
id goes to the client that has it; without one the sender is sent a notice. -/
structure Serves (s : CKKTranServer) : Prop where
  distinct : ∀ a ∈ s.clients, ∀ b ∈ s.clients, a.id = b.id → a = b
  idMap : ∀ id info, (s.tranInfoMap.key2Find id).bind s.heap = some info ↔
    info ∈ s.clients ∧ info.id = id
  addrMap : ∀ ip port info,
    (s.tranInfoMap.key1Find (KKAddress.toString ⟨ip, port, 0⟩)).bind s.heap = some info ↔
      info ∈ s.clients ∧ info.addr = ⟨ip, port, 0⟩
  message : ∀ now ip port data, data.head? = some 0xAD → 9 ≤ data.length →
    (∃ info ∈ s.clients, info.addr = ⟨ip, port, 0⟩) →
    ∃ s', s.step (.datagram now ip port data) = some s' ∧
      (∀ dest ∈ s.clients, dest.id = ntohl data 5 →
        s'.sent = s.sent ++ [(dest.addr, (s.recBuf.receive data).bytes)]) ∧
      ((∀ dest ∈ s.clients, dest.id ≠ ntohl data 5) →
        s'.sent = s.sent ++ [(⟨ip, port, 0⟩,
          [0xAC, UDPUNDEFTRANID] ++ htonl (ntohl data 5) ++ List.replicate 250 0)])

theorem Wf.mem_clients (h : Wf s) : info ∈ s.clients ↔ ∃ p, s.heap p = some info ∧
    info.addr.destTranId = 0 ∧ s.tranInfoMap.key1Find info.addr.toString = some p ∧
      s.tranInfoMap.key2Find info.id = some p := by
  constructor
  · rintro ⟨k, p, hp, hi⟩
    obtain ⟨i, hi', hk, hd, hq⟩ := h.entry hp
    rw [hi, Option.some.injEq] at hi'
    subst hi'
    exact ⟨p, hi, hd, hk ▸ hp, hq⟩
  · rintro ⟨p, hi, -, hp, -⟩
    exact ⟨_, p, hp, hi⟩

theorem Wf.distinct (h : Wf s) {a b : TranInfo} (ha : a ∈ s.clients) (hb : b ∈ s.clients)
    (hid : a.id = b.id) : a = b := by
  obtain ⟨p, hp, -, -, hp2⟩ := h.mem_clients.mp ha
  obtain ⟨q, hq, -, -, hq2⟩ := h.mem_clients.mp hb
  rw [hid, hq2, Option.some.injEq] at hp2
  subst hp2
  exact Option.some.inj (hp.symm.trans hq)

theorem Wf.idMap (h : Wf s) {id : UInt32} :
    (s.tranInfoMap.key2Find id).bind s.heap = some info ↔ info ∈ s.clients ∧ info.id = id := by
  rw [h.mem_clients, Option.bind_eq_some_iff]
  constructor
  · rintro ⟨p, hp, hi⟩
    obtain ⟨i, hi', hid, hd, hk⟩ := h.entry2 hp
    rw [hi, Option.some.injEq] at hi'
    subst hi'
    exact ⟨⟨p, hi, hd, hk, hid ▸ hp⟩, hid⟩
  · rintro ⟨⟨p, hi, -, -, hq⟩, rfl⟩
    exact ⟨p, hq, hi⟩

theorem Wf.addrMap (h : Wf s) (hd : addr.destTranId = 0) :
    (s.tranInfoMap.key1Find addr.toString).bind s.heap = some info ↔
      info ∈ s.clients ∧ info.addr = addr := by
  rw [h.mem_clients, Option.bind_eq_some_iff]
  constructor
  · rintro ⟨p, hp, hi⟩
    obtain ⟨i, hi', hk, hd', hq⟩ := h.entry hp
    rw [hi, Option.some.injEq] at hi'
    subst hi'
    rw [← hk] at hp
    exact ⟨⟨p, hi, hd', hp, hq⟩, (KKAddress.toString_inj hd' hd).mp hk⟩
  · rintro ⟨⟨p, hi, -, hp, -⟩, rfl⟩
    exact ⟨p, hp, hi⟩

/-- The id in a whole head is read as it was sent. -/
theorem ntohl_receive (b : RecBuf) {data : List UInt8} (h : 9 ≤ data.length) :
    ntohl (b.receive data).bytes 5 = ntohl data 5 := by
  have hb (i : ℕ) (hi : i < 9) : (b.receive data).bytes.getD i 0 = data.getD i 0 :=
    b.receive_getD (by omega) (hi.trans (by decide))
  simp only [ntohl, hb 5 (by decide), hb 6 (by decide), hb 7 (by decide), hb 8 (by decide)]

theorem Wf.message (h : Wf s) {ip : UInt32} {port : UInt16} {data : List UInt8}
    (hhead : data.head? = some 0xAD) (hlen : 9 ≤ data.length) (hinfo : info ∈ s.clients)
    (haddr : info.addr = ⟨ip, port, 0⟩) :
    ∃ s', s.step (.datagram now ip port data) = some s' ∧
      (∀ dest ∈ s.clients, dest.id = ntohl data 5 →
        s'.sent = s.sent ++ [(dest.addr, (s.recBuf.receive data).bytes)]) ∧
      ((∀ dest ∈ s.clients, dest.id ≠ ntohl data 5) →
        s'.sent = s.sent ++ [(⟨ip, port, 0⟩,
          [0xAC, UDPUNDEFTRANID] ++ htonl (ntohl data 5) ++ List.replicate 250 0)]) := by
  obtain ⟨p, hi, -, hp, -⟩ := h.mem_clients.mp hinfo
  rw [haddr] at hp
  rw [step_forward hhead]
  set r : CKKTranServer := { s with recBuf := s.recBuf.receive data } with hr
  have hdest : ntohl (s.recBuf.receive data).bytes 5 = ntohl data 5 := ntohl_receive _ hlen
  cases hq : s.tranInfoMap.key2Find (ntohl data 5) with
  | none =>
    refine ⟨_, onForward_eq_undefined (s := r) hp hi (hdest.symm ▸ hq), ?_, fun _ => ?_⟩
    · intro dest hmem hid
      obtain ⟨q, -, -, -, hq'⟩ := h.mem_clients.mp hmem
      rw [hid, hq] at hq'
      cases hq'
    · rw [hdest]
      rfl
  | some q =>
    obtain ⟨dest, hd, hid, -⟩ := h.entry2 hq
    -- the sender may be sending to itself; then its tick is new
    obtain ⟨dest', hd', haddr'⟩ : ∃ dest',
        (r.setInfo p { info with tick := now }).heap q = some dest' ∧ dest'.addr = dest.addr := by
      by_cases hqp : q = p
      · subst hqp
        rw [hi, Option.some.injEq] at hd
        exact ⟨_, Function.update_self .., by rw [← hd]⟩
      · exact ⟨dest, (Function.update_of_ne hqp ..).trans hd, rfl⟩
    refine ⟨_, onForward_eq_sent (s := r) hp hi (hdest.symm ▸ hq) hd', ?_, fun hnone => ?_⟩
    · intro dest₂ hmem hid₂
      have hsame : dest₂ = dest :=
        h.distinct hmem (h.idMap.mp (Option.bind_eq_some_iff.mpr ⟨q, hq, hd⟩)).1 (hid₂.trans hid.symm)
      rw [hsame, ← haddr']
      rfl
    · exact absurd hid (hnone dest (h.idMap.mp (Option.bind_eq_some_iff.mpr ⟨q, hq, hd⟩)).1)

theorem Wf.serves (h : Wf s) : Serves s where
  distinct _ ha _ hb hid := h.distinct ha hb hid
  idMap _ _ := h.idMap
  addrMap _ _ _ := h.addrMap rfl
  message _ _ _ _ hhead hlen := fun ⟨_, hinfo, haddr⟩ => h.message hhead hlen hinfo haddr

/-! ### Runs -/

theorem final_none (es : List RelayEvent) : Runs.final advance none es = none := by
  induction es with
  | nil => rfl
  | cons e es ih => exact ih

theorem Wf.run (h : Wf s) (es : List RelayEvent) :
    (∃ s', Runs.final advance (some s) es = some s') ↔
      Runs.Steps advance (fun s e => ∀ t ∈ s, IdsLeft t e) (some s) es := by
  induction es generalizing s with
  | nil => exact ⟨fun _ => trivial, fun _ => ⟨s, rfl⟩⟩
  | cons e es ih =>
    rw [Runs.final_cons, Runs.steps_cons]
    by_cases hleft : s.IdsLeft e
    · obtain ⟨s', hs, hw⟩ := h.step hleft
      have ha : (advance (some s) e).1 = some s' := hs
      rw [ha, ih hw]
      refine (and_iff_right ?_).symm
      rintro t ⟨⟩
      exact hleft
    · have ha : (advance (some s) e).1 = none := h.step_eq_none hleft
      rw [ha, final_none]
      simp [hleft]

theorem Wf.final (h : Wf s) {es : List RelayEvent}
    (hs : Runs.final advance (some s) es = some s') : Wf s' := by
  have hrun := (h.run es).mp ⟨s', hs⟩
  refine hrun.invariant (P := fun o => ∀ t ∈ o, Wf t) ?_ ?_ s' hs
  · intro o e hw hleft t ht
    obtain ⟨r, hr, hstep⟩ := Option.bind_eq_some_iff.mp ht
    obtain ⟨t', ht', hw'⟩ := (hw r hr).step (hleft r hr)
    rw [hstep, Option.some.injEq] at ht'
    exact ht' ▸ hw'
  · rintro t ⟨⟩
    exact h

/-- A sequence of datagrams and sweeps is gone through to the end, and served, if and only if there
is an id left whenever a new address registers. -/
theorem serves_iff (recBuf : RecBuf) (es : List RelayEvent) :
    (∃ s, Runs.final advance (some (start recBuf)) es = some s ∧ Serves s) ↔
      Runs.Steps advance (fun s e => ∀ t ∈ s, IdsLeft t e) (some (start recBuf)) es := by
  rw [← (Wf.start recBuf).run]
  constructor
  · exact fun ⟨s, hs, _⟩ => ⟨s, hs⟩
  · exact fun ⟨s, hs⟩ => ⟨s, hs, ((Wf.start recBuf).final hs).serves⟩

/-! ### A client that registers again and again -/

theorem exists_notMem {l : List UInt32} (h : l.length < 65535) :
    ∃ id : UInt32, id.toNat < 65535 ∧ id ∉ l := by
  by_contra hall
  push Not at hall
  have hsub : Finset.range 65535 ⊆ (l.map UInt32.toNat).toFinset := by
    intro n hn
    have hlt := Finset.mem_range.mp hn
    have hto : (UInt32.ofNat n).toNat = n := UInt32.toNat_ofNat_of_lt' (hlt.trans (by decide))
    rw [List.mem_toFinset, List.mem_map]
    exact ⟨UInt32.ofNat n, hall _ (hto.symm ▸ hlt), hto⟩
  have hcard := (Finset.card_le_card hsub).trans (List.toFinset_card_le _)
  rw [Finset.card_range, List.length_map] at hcard
  omega

theorem mem_of_length {l : List UInt32} (hl : l.length = 65535) (hd : l.Nodup)
    (hlt : ∀ id ∈ l, id.toNat < 65535) {id : UInt32} (hid : id.toNat < 65535) : id ∈ l := by
  have hsub : (l.map UInt32.toNat).toFinset ⊆ Finset.range 65535 := by
    intro n hn
    obtain ⟨i, hi, rfl⟩ := List.mem_map.mp (List.mem_toFinset.mp hn)
    exact Finset.mem_range.mpr (hlt i hi)
  have hdm : (l.map UInt32.toNat).Nodup := hd.map fun a b => UInt32.toNat_inj.mp
  have heq := Finset.eq_of_subset_of_card_le hsub (by
    rw [Finset.card_range, List.toFinset_card_of_nodup hdm, List.length_map, hl])
  have hmem := Finset.mem_range.mpr hid
  rw [← heq, List.mem_toFinset, List.mem_map] at hmem
  obtain ⟨i, hi, he⟩ := hmem
  exact UInt32.toNat_inj.mp he ▸ hi

def come : RelayEvent := .datagram 0 1 1 [0xAC, UDPGETTRANID]

def go : RelayEvent := .datagram 0 1 1 [0xAC, UDPDELTRANID]

/-- A client that registers and leaves `n` times. -/
def comeAndGo (n : ℕ) : List RelayEvent := (List.replicate n [come, go]).flatten

theorem step_getTranId (now : UInt64) (ip : UInt32) (port : UInt16) :
    s.step (.datagram now ip port [0xAC, UDPGETTRANID]) =
      onGetTranId { s with recBuf := s.recBuf.receive [0xAC, UDPGETTRANID] } now ⟨ip, port, 0⟩ := by
  have hb (i : ℕ) (hi : i < 2) : (s.recBuf.receive [0xAC, UDPGETTRANID]).bytes.getD i 0 =
      [0xAC, UDPGETTRANID].getD i 0 := s.recBuf.receive_getD hi (hi.trans (by decide))
  simp only [step, onTranBufHandle, hb 0 (by decide), hb 1 (by decide)]
  rfl

theorem step_come : s.step come =
    onGetTranId { s with recBuf := s.recBuf.receive [0xAC, UDPGETTRANID] } 0 ⟨1, 1, 0⟩ :=
  step_getTranId 0 1 1

theorem step_go : s.step go =
    onDelTranId { s with recBuf := s.recBuf.receive [0xAC, UDPDELTRANID] } ⟨1, 1, 0⟩ := by
  have hb (i : ℕ) (hi : i < 2) : (s.recBuf.receive [0xAC, UDPDELTRANID]).bytes.getD i 0 =
      [0xAC, UDPDELTRANID].getD i 0 := s.recBuf.receive_getD hi (hi.trans (by decide))
  simp only [step, go, onTranBufHandle, hb 0 (by decide), hb 1 (by decide)]
  rfl

/-- A client that comes and goes leaves the others. -/
theorem Wf.clients_freed_registered (h : Wf s)
    (hk : s.tranInfoMap.key1Find info.addr.toString = none)
    (hm : s'.tranInfoMap = (s.registered info).tranInfoMap)
    (hh : s'.heap = (s.registered info).heap) :
    (s'.freed s.allocated info).clients = s.clients := by
  have hkey (k : String) (p : ℕ) : (s'.freed s.allocated info).tranInfoMap.key1Find k = some p ↔
      s.tranInfoMap.key1Find k = some p := by
    rw [CKKTranServer.freed, TwoKeyMap.key1Find_key1Del, hm]
    split_ifs with hkey
    · subst hkey
      simp [hk]
    · refine (StdMap.find_insert_eq_some ..).trans ⟨?_, .inl⟩
      rintro (hp | ⟨-, rfl, -⟩)
      · exact hp
      · exact absurd rfl hkey
  have hheap {k : String} {p : ℕ} (hp : s.tranInfoMap.key1Find k = some p) :
      (s'.freed s.allocated info).heap p = s.heap p := by
    obtain ⟨k2, h3⟩ := h.agrees.value1 k p hp
    have hne : p ≠ s.allocated := (h.known p k k2 h3).1.ne
    refine (Function.update_of_ne hne ..).trans ?_
    rw [hh]
    exact Function.update_of_ne hne ..
  ext i
  constructor
  · rintro ⟨k, p, hp, hi⟩
    rw [hkey] at hp
    exact ⟨k, p, hp, (hheap hp).symm.trans hi⟩
  · rintro ⟨k, p, hp, hi⟩
    exact ⟨k, p, (hkey k p).mpr hp, (hheap hp).trans hi⟩

/-- Leaving frees the record, but not the id. -/
theorem Wf.come_go (h : Wf s) (hk : s.tranInfoMap.key1Find (KKAddress.toString ⟨1, 1, 0⟩) = none)
    {id : UInt32} (hid : s.findId = some id) :
    ∃ s', (s.step come).bind (fun t => t.step go) = some s' ∧ Wf s' ∧
      s'.tranInfoMap.key1Find (KKAddress.toString ⟨1, 1, 0⟩) = none ∧ s'.idSet = id :: s.idSet ∧
      s'.clients = s.clients := by
  obtain ⟨hnew, hlt⟩ := freeId_spec h.id_lt hid
  set r : CKKTranServer := { s with recBuf := s.recBuf.receive [0xAC, UDPGETTRANID] } with hr
  set info : TranInfo := { addr := ⟨1, 1, 0⟩, id := id, tick := 0 } with hinfo
  have hcome : s.step come = some ((r.registered info).sendTranId id ⟨1, 1, 0⟩) := by
    rw [step_come, onGetTranId_eq_new (s := r) hk]
    have hid' : r.findId = some id := hid
    rw [hid']
    rfl
  have hw : Wf (r.registered info) := (h.receive _).registered hk hnew hlt rfl
  set t : CKKTranServer := { (r.registered info).sendTranId id ⟨1, 1, 0⟩ with
    recBuf := s.recBuf.receive [0xAC, UDPGETTRANID] |>.receive [0xAC, UDPDELTRANID] } with ht
  have hwt : Wf t := hw.congr rfl rfl rfl rfl rfl
  have hp : t.tranInfoMap.key1Find info.addr.toString = some s.allocated := by
    refine (StdMap.find_insert_eq_some ..).mpr (.inr ⟨hk, rfl, rfl⟩)
  have hi : t.heap s.allocated = some info := Function.update_self ..
  refine ⟨t.freed s.allocated info, ?_, hwt.freed hp, ?_, rfl, ?_⟩
  · rw [hcome, Option.bind_some, step_go]
    show t.onDelTranId info.addr = _
    rw [CKKTranServer.onDelTranId, hp]
    simp only [freeTranInfo_eq hi hp, Option.map_some]
  · rw [CKKTranServer.freed, TwoKeyMap.key1Find_key1Del, if_pos rfl]
  · exact h.clients_freed_registered hk rfl rfl

/-- The ids given out so far. -/
structure GaveOut (s : CKKTranServer) (n : ℕ) : Prop where
  length : s.idSet.length = n
  nodup : s.idSet.Nodup
  lt : ∀ id ∈ s.idSet, id.toNat < 65535

theorem GaveOut.cons {n : ℕ} (h : s.GaveOut n) {id : UInt32} (hnew : id ∉ s.idSet) (hlt : id.toNat < 65535)
    (hset : s'.idSet = id :: s.idSet) : s'.GaveOut (n + 1) := by
  constructor
  · rw [hset, List.length_cons, h.length]
  · rw [hset]
    exact List.nodup_cons.mpr ⟨hnew, h.nodup⟩
  · rw [hset]
    exact List.forall_mem_cons.mpr ⟨hlt, h.lt⟩

theorem final_comeAndGo (h : Wf s)
    (hk : s.tranInfoMap.key1Find (KKAddress.toString ⟨1, 1, 0⟩) = none) {m n : ℕ}
    (hm : s.GaveOut m) (hn : m + n ≤ 65535) :
    ∃ s', Runs.final advance (some s) (comeAndGo n) = some s' ∧ Wf s' ∧
      s'.tranInfoMap.key1Find (KKAddress.toString ⟨1, 1, 0⟩) = none ∧ s'.GaveOut (m + n) ∧
      s'.clients = s.clients := by
  induction n with
  | zero => exact ⟨s, rfl, h, hk, hm, rfl⟩
  | succ n ih =>
    obtain ⟨t, ht, hw, hkt, hgave, hclients⟩ := ih (by omega)
    have hless : t.idSet.length < 65535 := by
      rw [hgave.length]
      omega
    obtain ⟨free, hfree, hmem⟩ := exists_notMem hless
    obtain ⟨id, hid⟩ : ∃ id, t.findId = some id := by
      rw [← Option.ne_none_iff_exists', ne_eq, findId_eq_none_iff hw.id_lt]
      exact fun hall => hmem (hall free hfree)
    obtain ⟨hnew, hidlt⟩ := freeId_spec hw.id_lt hid
    obtain ⟨s', hs', hw', hk', hset, hclients'⟩ := hw.come_go hkt hid
    refine ⟨s', ?_, hw', hk', hgave.cons hnew hidlt hset, hclients'.trans hclients⟩
    rw [comeAndGo, List.replicate_succ', List.flatten_append, List.flatten_singleton,
      Runs.final_append]
    rw [comeAndGo] at ht
    rw [ht]
    exact hs'

/-- With all ids given out the client gets none. -/
theorem step_come_eq_none (h : Wf s)
    (hk : s.tranInfoMap.key1Find (KKAddress.toString ⟨1, 1, 0⟩) = none) (hgave : s.GaveOut 65535) :
    s.step come = none := by
  refine h.step_eq_none fun hleft => ?_
  obtain ⟨id, hid, hmem⟩ := hleft ⟨by simp, s.recBuf.receive_getD (by simp) (by decide),
    s.recBuf.receive_getD (by simp) (by decide), hk⟩
  exact hmem (mem_of_length hgave.length hgave.nodup hgave.lt hid)

/-- A client that stays. -/
def resident : TranInfo := { addr := ⟨2, 1, 0⟩, id := 1, tick := 0 }

def stay : RelayEvent := .datagram 0 2 1 [0xAC, UDPGETTRANID]

/-- A message of that client to itself. -/
def note : List UInt8 := [0xAD, 0, 0, 0, 0, 0, 0, 0, 1]

theorem step_stay (recBuf : RecBuf) : ∃ s, (start recBuf).step stay = some s ∧ Wf s ∧
    s.tranInfoMap.key1Find (KKAddress.toString ⟨1, 1, 0⟩) = none ∧ s.GaveOut 1 ∧
      resident ∈ s.clients := by
  set r : CKKTranServer :=
    { start recBuf with recBuf := recBuf.receive [0xAC, UDPGETTRANID] } with hr
  have hw : Wf (r.registered resident) :=
    ((Wf.start recBuf).receive _).registered rfl List.not_mem_nil (by decide) rfl
  have hp : (r.registered resident).tranInfoMap.key1Find resident.addr.toString =
      some r.allocated := (StdMap.find_insert_eq_some ..).mpr (.inr ⟨rfl, rfl, rfl⟩)
  refine ⟨(r.registered resident).sendTranId 1 resident.addr, ?_, hw.kksend _, ?_, ?_, ?_⟩
  · rw [stay, step_getTranId]
    exact onGetTranId_eq_new (s := r) rfl
  · refine (StdMap.find_insert ..).trans ?_
    rw [if_neg ((KKAddress.toString_inj rfl rfl).not.mpr (by decide))]
    rfl
  · exact ⟨rfl, List.nodup_singleton _, List.forall_mem_singleton.mpr (by decide)⟩
  · refine ⟨resident.addr.toString, r.allocated, hp, ?_⟩
    show Function.update r.heap r.allocated (some resident) r.allocated = some resident
    exact Function.update_self ..

/-- A client that stays has its message sent, but not behind the last of 65536 registrations: that
one is never answered, nor is anything behind it. -/
theorem serves_comeAndGo : ∃ s,
    Runs.final advance (some (start emptyBuf)) (stay :: comeAndGo 65534) = some s ∧
      resident ∈ s.clients ∧ ntohl note 5 = resident.id ∧
      (∃ s', s.step (.datagram 0 2 1 note) = some s' ∧
        s'.sent = s.sent ++ [(resident.addr, (s.recBuf.receive note).bytes)]) ∧
      Runs.final advance (some s) [come, .datagram 0 2 1 note] = none := by
  obtain ⟨s₀, hs₀, hw₀, hk₀, hgave₀, hmem₀⟩ := step_stay emptyBuf
  obtain ⟨s, hs, hw, hk, hgave, hclients⟩ := final_comeAndGo hw₀ hk₀ (n := 65534) hgave₀ (by decide)
  rw [← hclients] at hmem₀
  have hid : ntohl note 5 = resident.id := by decide
  have hlen : 9 ≤ note.length := by decide
  have hhead : note.head? = some 0xAD := rfl
  obtain ⟨s', hs', hsent, -⟩ : ∃ s', s.step (.datagram 0 2 1 note) = some s' ∧ _ :=
    hw.message hhead hlen hmem₀ rfl
  refine ⟨s, ?_, hmem₀, hid, ⟨s', hs', hsent resident hmem₀ hid.symm⟩, ?_⟩
  · have hfirst : (advance (some (start emptyBuf)) stay).1 = some s₀ := hs₀
    rw [Runs.final_cons, hfirst]
    exact hs
  · have hlast : (advance (some s) come).1 = none := step_come_eq_none hw hk hgave
    rw [Runs.final_cons, hlast, final_none]

end CKKTranServer

end KkLicode.Kcp
