import KkLicode.Kcp.RelayTable

/-! The ids of the relay. An id is taken out of the free ones when an address
registers, and never put back: the ids that were given out are as many as the
registrations. So the search for an id ends until 65535 ids were given out, whoever
has left in between. -/

namespace KkLicode.Kcp

open Base

namespace CKKTranServer

variable {s s' : CKKTranServer} {now : UInt64} {addr : KKAddress} {p : ℕ} {buf : List UInt8}
  {e : RelayEvent}

instance decidableRegisters (s : CKKTranServer) (e : RelayEvent) : Decidable (s.Registers e) :=
  match e with
  | .idle _ => isFalse fun h => h
  | .datagram .. => inferInstanceAs (Decidable (_ ∧ _ ∧ _ ∧ _))

/-! ### Who takes an id -/

theorem freeTranInfo_idSet {it : Option String} (h : s.freeTranInfo p = some (s', it)) :
    s'.idSet = s.idSet := by
  obtain ⟨info, -, h⟩ := Option.bind_eq_some_iff.mp h
  cases h
  rfl

theorem sweepFrom_idSet {fuel : ℕ} {it : Option String} (h : s.sweepFrom fuel now it = some s') :
    s'.idSet = s.idSet := by
  induction fuel generalizing s it with
  | zero =>
    cases h
    rfl
  | succ fuel ih =>
    cases it with
    | none =>
      cases h
      rfl
    | some key =>
      obtain ⟨p, -, h⟩ := Option.bind_eq_some_iff.mp h
      obtain ⟨info, -, h⟩ := Option.bind_eq_some_iff.mp h
      split_ifs at h
      · obtain ⟨⟨t, it⟩, hfree, h⟩ := Option.bind_eq_some_iff.mp h
        exact (ih h).trans (freeTranInfo_idSet hfree)
      · exact ih h

theorem touch_idSet (h : s.touch now p = some s') : s'.idSet = s.idSet := by
  obtain ⟨info, -, h⟩ := Option.bind_eq_some_iff.mp h
  cases h
  rfl

theorem onDelTranId_idSet (h : s.onDelTranId addr = some s') : s'.idSet = s.idSet := by
  unfold onDelTranId at h
  split at h
  · cases h
    rfl
  · obtain ⟨r, hfree, rfl⟩ := Option.map_eq_some_iff.mp h
    exact freeTranInfo_idSet hfree

theorem onTranHeart_idSet (h : s.onTranHeart now addr = some s') : s'.idSet = s.idSet := by
  unfold onTranHeart at h
  split at h
  · cases h
    rfl
  · exact touch_idSet h

theorem onLookPreTran_idSet (h : s.onLookPreTran now buf addr = some s') : s'.idSet = s.idSet := by
  unfold onLookPreTran at h
  split at h
  · cases h
    rfl
  · obtain ⟨info, -, h⟩ := Option.bind_eq_some_iff.mp h
    cases h
    rfl

theorem onForward_idSet (h : s.onForward now buf addr = some s') : s'.idSet = s.idSet := by
  unfold onForward at h
  split at h
  · cases h
    unfold sendNotifyCode
    rfl
  · obtain ⟨t, ht, h⟩ := Option.bind_eq_some_iff.mp h
    refine Eq.trans ?_ (touch_idSet ht)
    split at h
    · cases h
      rfl
    · obtain ⟨dest, -, h⟩ := Option.bind_eq_some_iff.mp h
      cases h
      rfl

/-- A new address takes the id that is found, a known one takes none. -/
theorem onGetTranId_idSet (h : s.onGetTranId now addr = some s') :
    s.tranInfoMap.key1Find addr.toString = none ∧
        (∃ id, s.findId = some id ∧ s'.idSet = id :: s.idSet) ∨
      s.tranInfoMap.key1Find addr.toString ≠ none ∧ s'.idSet = s.idSet := by
  cases hp : s.tranInfoMap.key1Find addr.toString with
  | none =>
    rw [onGetTranId_eq_new hp] at h
    obtain ⟨id, hid, rfl⟩ := Option.map_eq_some_iff.mp h
    exact .inl ⟨rfl, id, hid, rfl⟩
  | some p =>
    unfold onGetTranId at h
    rw [hp] at h
    obtain ⟨info, -, h⟩ := Option.bind_eq_some_iff.mp h
    cases h
    exact .inr ⟨by simp, rfl⟩

/-- Only a registration takes an id, and no step gives one back. -/
theorem step_idSet (h : s.step e = some s') :
    s.Registers e ∧ (∃ id, s.findId = some id ∧ s'.idSet = id :: s.idSet) ∨
      ¬ s.Registers e ∧ s'.idSet = s.idSet := by
  cases e with
  | idle now => exact .inr ⟨fun hr => hr, sweepFrom_idSet h⟩
  | datagram now ip port data =>
    unfold step at h
    dsimp only at h
    split_ifs at h with hd
    · have hsame := sweepFrom_idSet h
      exact .inr ⟨fun hr => hr.1 hd, hsame⟩
    · unfold onTranBufHandle at h
      dsimp only at h
      split_ifs at h with hac hdel hget hlook hheart had
      · have hsame := onDelTranId_idSet h
        refine .inr ⟨fun hr => ?_, hsame⟩
        exact absurd (hdel.symm.trans hr.2.2.1) (by decide)
      · refine (onGetTranId_idSet h).imp ?_ ?_
        · exact fun ⟨hk, hid⟩ => ⟨⟨hd, hac, hget, hk⟩, hid⟩
        · exact fun ⟨hk, hid⟩ => ⟨fun hr => hk hr.2.2.2, hid⟩
      · have hsame := onLookPreTran_idSet h
        exact .inr ⟨fun hr => hget hr.2.2.1, hsame⟩
      · have hsame := onTranHeart_idSet h
        exact .inr ⟨fun hr => hget hr.2.2.1, hsame⟩
      · cases h
        exact .inr ⟨fun hr => hget hr.2.2.1, rfl⟩
      · have hsame := onForward_idSet h
        exact .inr ⟨fun hr => hac hr.2.1, hsame⟩
      · cases h
        exact .inr ⟨fun hr => hac hr.2.1, rfl⟩

/-! ### The ledger -/

/-- The ids that were given out differ, and are as many as the registrations so far. -/
structure Ledger (s : CKKTranServer) (given : ℕ) : Prop where
  wf : Wf s
  nodup : s.idSet.Nodup
  id_lt : ∀ id ∈ s.idSet, id.toNat < 65535
  length_eq : s.idSet.length = given

/-- Whether an address registers that has no record. -/
def registrations (s : Option CKKTranServer) (e : RelayEvent) : ℕ :=
  match s with
  | none => 0
  | some s => if s.Registers e then 1 else 0

/-- A registration finds an id that no client has. -/
def FindsId (s : Option CKKTranServer) (e : RelayEvent) : Prop :=
  ∀ t ∈ s, t.Registers e → ∃ id, t.findId = some id ∧ ∀ info ∈ t.clients, info.id ≠ id

namespace Ledger

variable {given : ℕ}

theorem start (recBuf : RecBuf) : Ledger (start recBuf) 0 where
  wf := .start recBuf
  nodup := List.nodup_nil
  id_lt := by simp [CKKTranServer.start]
  length_eq := rfl

/-- An id is left as long as fewer than 65535 were given out. -/
theorem left_iff (h : Ledger s given) :
    (∃ id : UInt32, id.toNat < 65535 ∧ id ∉ s.idSet) ↔ given < 65535 := by
  have hle : given ≤ 65535 := by
    have hsub : s.idSet.toFinset.image UInt32.toNat ⊆ Finset.range 65535 := by
      intro n hn
      obtain ⟨id, hid, rfl⟩ := Finset.mem_image.mp hn
      exact Finset.mem_range.mpr (h.id_lt id (List.mem_toFinset.mp hid))
    have hcard := Finset.card_le_card hsub
    rwa [Finset.card_image_of_injective _ fun a b => UInt32.toNat_inj.mp,
      List.toFinset_card_of_nodup h.nodup, h.length_eq, Finset.card_range] at hcard
  constructor
  · rintro ⟨id, hid, hmem⟩
    refine lt_of_le_of_ne hle fun he => hmem ?_
    exact mem_of_length (h.length_eq.trans he) h.nodup h.id_lt hid
  · exact fun hlt => exists_notMem (h.length_eq.trans_lt hlt)

/-- The search ends with an id that no client has if and only if an id is left. -/
theorem finds_iff_lt (h : Ledger s given) (hr : s.Registers e) :
    FindsId (some s) e ↔ given < 65535 := by
  rw [← h.left_iff]
  constructor
  · intro hfind
    obtain ⟨id, hid, -⟩ := hfind s rfl hr
    obtain ⟨hmem, hlt⟩ := freeId_spec h.wf.id_lt hid
    exact ⟨id, hlt, hmem⟩
  · rintro ⟨free, hlt, hmem⟩ t ⟨⟩ -
    obtain ⟨id, hid⟩ : ∃ id, s.findId = some id := by
      rw [← Option.ne_none_iff_exists', ne_eq, findId_eq_none_iff h.wf.id_lt]
      exact fun hall => hmem (hall free hlt)
    refine ⟨id, hid, fun info hinfo he => ?_⟩
    obtain ⟨p, -, -, -, hp⟩ := h.wf.mem_clients.mp hinfo
    obtain ⟨k, h3⟩ := h.wf.agrees.value2 _ p hp
    exact (freeId_spec h.wf.id_lt hid).1 (he ▸ (h.wf.known p k _ h3).2)

/-- A step that ends keeps the ledger. -/
theorem step (h : Ledger s given) (hs : s.step e = some s') :
    Ledger s' (given + registrations (some s) e) := by
  have hw : Wf s' := by
    by_cases hleft : s.IdsLeft e
    · obtain ⟨t, ht, hw⟩ := h.wf.step hleft
      rw [hs, Option.some.injEq] at ht
      exact ht ▸ hw
    · exact absurd (hs.symm.trans (h.wf.step_eq_none hleft)) (by simp)
  rcases step_idSet hs with ⟨hr, id, hid, hset⟩ | ⟨hr, hset⟩
  · obtain ⟨hmem, hlt⟩ := freeId_spec h.wf.id_lt hid
    refine ⟨hw, ?_, ?_, ?_⟩
    · rw [hset]
      exact List.nodup_cons.mpr ⟨hmem, h.nodup⟩
    · rw [hset]
      exact List.forall_mem_cons.mpr ⟨hlt, h.id_lt⟩
    · rw [hset, List.length_cons, h.length_eq, registrations, if_pos hr]
  · refine ⟨hw, hset ▸ h.nodup, hset ▸ h.id_lt, ?_⟩
    rw [hset, h.length_eq, registrations, if_neg hr, Nat.add_zero]

end Ledger

/-! ### Runs -/

theorem total_registrations_none (es : List RelayEvent) :
    Runs.total advance registrations none es = 0 := by
  induction es with
  | nil => rfl
  | cons e es ih => exact (Nat.zero_add _).trans ih

theorem Ledger.run {given : ℕ} (h : Ledger s given) (hle : given ≤ 65535) (es : List RelayEvent) :
    Runs.Steps advance FindsId (some s) es ↔
      given + Runs.total advance registrations (some s) es ≤ 65535 := by
  induction es generalizing s given with
  | nil => simpa [Runs.total] using hle
  | cons e es ih =>
    rw [Runs.steps_cons, Runs.total, ← Nat.add_assoc]
    cases hs : s.step e with
    | some t =>
      have ha : (advance (some s) e).1 = some t := hs
      have ht := h.step hs
      have hfinds : FindsId (some s) e := by
        rcases step_idSet hs with ⟨hr, id, hid, -⟩ | ⟨hr, -⟩
        · obtain ⟨hmem, hlt⟩ := freeId_spec h.wf.id_lt hid
          exact (h.finds_iff_lt hr).mpr (h.left_iff.mp ⟨id, hlt, hmem⟩)
        · rintro t ⟨⟩ hreg
          exact absurd hreg hr
      have hle' : given + registrations (some s) e ≤ 65535 := by
        by_cases hr : s.Registers e
        · have := (h.finds_iff_lt hr).mp hfinds
          rw [registrations, if_pos hr]
          omega
        · rwa [registrations, if_neg hr]
      rw [ha, ih ht hle']
      exact and_iff_right hfinds
    | none =>
      -- only the search for an id does not end
      have hleft : ¬ s.IdsLeft e := fun hleft => by
        obtain ⟨t, ht, -⟩ := h.wf.step hleft
        exact absurd (hs.symm.trans ht) (by simp)
      obtain ⟨hr, hnone⟩ := Classical.not_imp.mp hleft
      have ha : (advance (some s) e).1 = none := hs
      rw [h.left_iff] at hnone
      rw [ha, h.finds_iff_lt hr, total_registrations_none, registrations, if_pos hr]
      constructor
      · exact fun ⟨hlt, _⟩ => absurd hlt hnone
      · intro hlt
        omega

/-- Whenever an address registers the search ends with an id that no client has, if and only if
no more than 65535 registrations are made, those of clients that have left counted. -/
theorem findsId_iff (recBuf : RecBuf) (es : List RelayEvent) :
    Runs.Steps advance FindsId (some (start recBuf)) es ↔
      Runs.total advance registrations (some (start recBuf)) es ≤ 65535 := by
  rw [(Ledger.start recBuf).run (Nat.zero_le _), Nat.zero_add]

/-! ### One client -/

/-- Nobody but the client that comes and goes is registered. -/
def Alone (s : CKKTranServer) : Prop :=
  ∀ k, s.tranInfoMap.key1Find k ≠ none → k = KKAddress.toString ⟨1, 1, 0⟩

theorem Alone.come (h : Alone s) (hs : s.step come = some s') : Alone s' := by
  rw [step_come] at hs
  set r : CKKTranServer := { s with recBuf := s.recBuf.receive [0xAC, UDPGETTRANID] } with hr
  cases hp : r.tranInfoMap.key1Find (KKAddress.toString ⟨1, 1, 0⟩) with
  | none =>
    rw [onGetTranId_eq_new hp] at hs
    obtain ⟨id, -, rfl⟩ := Option.map_eq_some_iff.mp hs
    intro k hk
    have hins := StdMap.find_insert s.tranInfoMap.map1 (KKAddress.toString ⟨1, 1, 0⟩) k s.allocated
    by_contra hne
    rw [if_neg hne] at hins
    exact hne (h k fun hnone => hk (hins.trans hnone))
  | some p =>
    unfold onGetTranId at hs
    rw [hp] at hs
    obtain ⟨info, -, hs⟩ := Option.bind_eq_some_iff.mp hs
    cases hs
    exact h

theorem Alone.go (h : Alone s) (hs : s.step go = some s') : Alone s' := by
  rw [step_go] at hs
  unfold onDelTranId at hs
  split at hs
  · cases hs
    exact h
  · obtain ⟨r, hfree, rfl⟩ := Option.map_eq_some_iff.mp hs
    obtain ⟨info, -, hfree⟩ := Option.bind_eq_some_iff.mp hfree
    cases hfree
    intro k hk
    refine h k fun hnone => hk ?_
    have hdel : (s.tranInfoMap.key1Del info.addr.toString).1.key1Find k = _ :=
      TwoKeyMap.key1Find_key1Del k
    refine hdel.trans ?_
    split_ifs
    · rfl
    · exact hnone

/-- While one client comes and goes, one is registered at most. -/
theorem steps_alone {o : Option CKKTranServer} {es : List RelayEvent} (ho : ∀ t ∈ o, Alone t)
    (hes : ∀ e ∈ es, e = come ∨ e = go) :
    Runs.Steps advance (fun o _ => ∀ t ∈ o, t.tranInfoMap.map1.pairs.length ≤ 1) o es := by
  induction es generalizing o with
  | nil => trivial
  | cons e es ih =>
    refine ⟨fun t ht => StdMap.length_le_one (ho t ht), ih ?_ fun e he => hes e (by simp [he])⟩
    intro t ht
    obtain ⟨s, hs, hstep⟩ := Option.bind_eq_some_iff.mp ht
    rcases hes e List.mem_cons_self with rfl | rfl
    · exact (ho s hs).come hstep
    · exact (ho s hs).go hstep

theorem mem_comeAndGo {n : ℕ} {e : RelayEvent} (h : e ∈ comeAndGo n) : e = come ∨ e = go := by
  obtain ⟨l, hl, he⟩ := List.mem_flatten.mp h
  rw [List.eq_of_mem_replicate hl] at he
  simpa using he

/-- The client that comes for the 65536th time gets no id, though no other one was ever there. -/
theorem not_findsId_comeAndGo :
    Runs.Steps advance (fun o _ => ∀ t ∈ o, t.tranInfoMap.map1.pairs.length ≤ 60000)
        (some (start emptyBuf)) (comeAndGo 65535 ++ [come]) ∧
      ¬ Runs.Steps advance FindsId (some (start emptyBuf)) (comeAndGo 65535 ++ [come]) := by
  constructor
  · have hone : Runs.Steps advance (fun o _ => ∀ t ∈ o, t.tranInfoMap.map1.pairs.length ≤ 1)
        (some (start emptyBuf)) (comeAndGo 65535 ++ [come]) := by
      refine steps_alone ?_ fun e he => ?_
      · rintro t ⟨⟩ k hk
        exact absurd rfl hk
      · rcases List.mem_append.mp he with he | he
        · exact mem_comeAndGo he
        · exact .inl (List.mem_singleton.mp he)
    exact hone.imp fun o e ho t ht => (ho t ht).trans (by decide)
  · obtain ⟨s, hs, hw, hk, hgave, -⟩ := final_comeAndGo (Wf.start emptyBuf) rfl (m := 0)
      (n := 65535) ⟨rfl, List.nodup_nil, by simp [start]⟩ (by decide)
    rw [Runs.steps_append, hs]
    rintro ⟨-, hfind, -⟩
    obtain ⟨id, hid, -⟩ := hfind s rfl ⟨by simp, s.recBuf.receive_getD (by simp) (by decide),
      s.recBuf.receive_getD (by simp) (by decide), hk⟩
    obtain ⟨hmem, hidlt⟩ := freeId_spec hw.id_lt hid
    exact hmem (mem_of_length hgave.length hgave.nodup hgave.lt hidlt)

end CKKTranServer

end KkLicode.Kcp
