import Mathlib.Data.Nat.Basic
import KkLicode.Base.Runs
import KkLicode.Kcp.TwoKeyMap

/-! When the three maps of a `TKKTwoKeyMap` tell of the same values. A value has one
first key and at most one second key; 0 in the third map stands for none. An
operation keeps this, and a deletion takes the value of its key and nothing else,
exactly if no key is taken by another value and no value has another key. -/

namespace KkLicode.Kcp.TwoKeyMap

open Base

variable {κ₁ κ₂ τ : Type*} [LinearOrder κ₁] [LinearOrder κ₂] [LinearOrder τ] [OfNat κ₂ 0]

variable (κ₁ κ₂ τ) in
inductive Op where
  | insert (k1 : κ₁) (k2 : κ₂) (value : τ)
  | key1Insert (k1 : κ₁) (value : τ)
  | key2insert (k1 : κ₁) (k2 : κ₂) (value : τ)
  | key1Del (k1 : κ₁)

def apply (m : TwoKeyMap κ₁ κ₂ τ) : Op κ₁ κ₂ τ → TwoKeyMap κ₁ κ₂ τ
  | .insert k1 k2 value => m.insert k1 k2 value
  | .key1Insert k1 value => m.key1Insert k1 value
  | .key2insert k1 k2 value => m.key2insert k1 k2 value
  | .key1Del k1 => (m.key1Del k1).1

def advance (m : TwoKeyMap κ₁ κ₂ τ) (op : Op κ₁ κ₂ τ) : TwoKeyMap κ₁ κ₂ τ × Unit := (m.apply op, ())

/-- The third map has the values of the other two under their keys. -/
structure Agrees (m : TwoKeyMap κ₁ κ₂ τ) : Prop where
  value1 : ∀ k1 value, m.map1.find k1 = some value → ∃ k2, m.map3.find value = some (k1, k2)
  value2 : ∀ k2 value, m.map2.find k2 = some value → ∃ k1, m.map3.find value = some (k1, k2)
  keys : ∀ value k1 k2, m.map3.find value = some (k1, k2) →
    m.map1.find k1 = some value ∧ (m.map2.find k2 = some value ∨ k2 = 0)

/-- A key that is there goes with its value from all three maps, and with nothing else; a key that
is not there changes nothing. -/
def DelExact (m : TwoKeyMap κ₁ κ₂ τ) (k1 : κ₁) : Prop :=
  match m.map1.find k1 with
  | none => (m.key1Del k1).1 = m
  | some value =>
    (∀ j, (m.key1Del k1).1.map1.find j = if j = k1 then none else m.map1.find j) ∧
    (∀ j, (m.key1Del k1).1.map2.find j =
      if m.map2.find j = some value then none else m.map2.find j) ∧
    ∀ w, (m.key1Del k1).1.map3.find w = if w = value then none else m.map3.find w

def Sound (m : TwoKeyMap κ₁ κ₂ τ) (op : Op κ₁ κ₂ τ) : Prop :=
  (m.apply op).Agrees ∧ ∀ k1, op = .key1Del k1 → m.DelExact k1

/-- The value may be under the first key, and it is under no other. -/
def Fits1 (m : TwoKeyMap κ₁ κ₂ τ) (k1 : κ₁) (value : τ) : Prop :=
  (∀ w ∈ m.map1.find k1, w = value) ∧ ∀ j ∈ m.map3.find value, j.1 = k1

/-- The value may be under the second key, and it is under no other. -/
def Fits2 (m : TwoKeyMap κ₁ κ₂ τ) (k2 : κ₂) (value : τ) : Prop :=
  (k2 = 0 ∨ ∀ w ∈ m.map2.find k2, w = value) ∧
    ∀ j ∈ m.map3.find value, m.map2.find j.2 = some value → j.2 = k2

def Keyed (m : TwoKeyMap κ₁ κ₂ τ) : Op κ₁ κ₂ τ → Prop
  | .insert k1 k2 value => m.Fits1 k1 value ∧ m.Fits2 k2 value
  | .key1Insert k1 value => m.Fits1 k1 value
  | .key2insert _ k2 value => (m.map3.find value).isSome ∧ m.Fits2 k2 value
  | .key1Del k1 =>
    match m.map1.find k1 with
    | none => m.map1.pairs = []
    | some value => ∀ j ∈ m.map3.find value, ∀ w ∈ m.map2.find j.2, w = value

instance Fits1.decidable (m : TwoKeyMap κ₁ κ₂ τ) (k1 : κ₁) (value : τ) :
    Decidable (m.Fits1 k1 value) :=
  inferInstanceAs (Decidable ((∀ w ∈ m.map1.find k1, _) ∧ ∀ j ∈ m.map3.find value, _))

instance Fits2.decidable (m : TwoKeyMap κ₁ κ₂ τ) (k2 : κ₂) (value : τ) :
    Decidable (m.Fits2 k2 value) :=
  inferInstanceAs (Decidable ((_ ∨ ∀ w ∈ m.map2.find k2, _) ∧ ∀ j ∈ m.map3.find value, _))

instance Keyed.decidable (m : TwoKeyMap κ₁ κ₂ τ) : ∀ op, Decidable (m.Keyed op)
  | .insert k1 k2 value => inferInstanceAs (Decidable (m.Fits1 k1 value ∧ m.Fits2 k2 value))
  | .key1Insert k1 value => Fits1.decidable m k1 value
  | .key2insert _ k2 value =>
    inferInstanceAs (Decidable ((m.map3.find value).isSome ∧ m.Fits2 k2 value))
  | .key1Del k1 =>
    match h : m.map1.find k1 with
    | none => decidable_of_iff (m.map1.pairs = []) (by simp only [Keyed, h])
    | some value => decidable_of_iff (∀ j ∈ m.map3.find value, ∀ w ∈ m.map2.find j.2, w = value)
        (by simp only [Keyed, h])

variable {m : TwoKeyMap κ₁ κ₂ τ} {k1 : κ₁} {k2 : κ₂} {value : τ}

theorem Agrees.empty : Agrees ({} : TwoKeyMap κ₁ κ₂ τ) where
  value1 _ _ h := by simp at h
  value2 _ _ h := by simp at h
  keys _ _ _ h := by simp at h

/-! ### Insertion -/

/-- An insertion writes the keys of one value into the third map; it may add the value to
the first two maps under them. -/
theorem agrees_iff_of_assign (h : Agrees m) {m' : TwoKeyMap κ₁ κ₂ τ} {p q : Prop}
    (f1 : ∀ j w, m'.map1.find j = some w ↔ m.map1.find j = some w ∨ (p ∧ j = k1 ∧ w = value))
    (f2 : ∀ j w, m'.map2.find j = some w ↔ m.map2.find j = some w ∨ (q ∧ j = k2 ∧ w = value))
    (f3 : ∀ w, m'.map3.find w = if w = value then some (k1, k2) else m.map3.find w) :
    Agrees m' ↔ (m'.map1.find k1 = some value ∧ (m'.map2.find k2 = some value ∨ k2 = 0)) ∧
      ∀ j ∈ m.map3.find value, j.1 = k1 ∧ (m.map2.find j.2 = some value → j.2 = k2) := by
  constructor
  · intro h'
    refine ⟨h'.keys value k1 k2 ((f3 value).trans (if_pos rfl)), fun ⟨j1, j2⟩ hj => ?_⟩
    have hj1 := (f1 j1 value).mpr (.inl (h.keys value j1 j2 hj).1)
    obtain ⟨i, hi⟩ := h'.value1 j1 value hj1
    rw [f3, if_pos rfl] at hi
    refine ⟨by grind, fun hj2 => ?_⟩
    obtain ⟨i, hi⟩ := h'.value2 j2 value ((f2 j2 value).mpr (.inl hj2))
    rw [f3, if_pos rfl] at hi
    grind
  · rintro ⟨hk, hj⟩
    constructor
    · intro j w hw
      rw [f3]
      split_ifs with hv
      · subst hv
        rcases (f1 j w).mp hw with hw | ⟨-, rfl, -⟩
        · obtain ⟨i, hi⟩ := h.value1 j w hw
          exact ⟨k2, by rw [← (hj _ hi).1]⟩
        · exact ⟨k2, rfl⟩
      · exact h.value1 j w (((f1 j w).mp hw).resolve_right fun hp => hv hp.2.2)
    · intro j w hw
      rw [f3]
      split_ifs with hv
      · subst hv
        rcases (f2 j w).mp hw with hw | ⟨-, rfl, -⟩
        · obtain ⟨i, hi⟩ := h.value2 j w hw
          exact ⟨k1, by rw [← (hj _ hi).2 hw]⟩
        · exact ⟨k1, rfl⟩
      · exact h.value2 j w (((f2 j w).mp hw).resolve_right fun hp => hv hp.2.2)
    · intro w j1 j2 hw
      rw [f3] at hw
      split_ifs at hw with hv
      · cases hw
        exact hv ▸ hk
      · obtain ⟨h1, h2⟩ := h.keys w j1 j2 hw
        exact ⟨(f1 j1 w).mpr (.inl h1), h2.imp_left fun h2 => (f2 j2 w).mpr (.inl h2)⟩

theorem agrees_insert_iff (h : Agrees m) :
    Agrees (m.insert k1 k2 value) ↔ m.Fits1 k1 value ∧ m.Fits2 k2 value := by
  rw [agrees_iff_of_assign h (fun j w => StdMap.find_insert_eq_some ..)
    (fun j w => StdMap.find_insert_eq_some ..) (fun w => StdMap.find_assign ..)]
  have e1 : (m.insert k1 k2 value).map1.find k1 = some value ↔ _ := StdMap.find_insert_self_iff ..
  have e2 : (m.insert k1 k2 value).map2.find k2 = some value ↔ _ := StdMap.find_insert_self_iff ..
  rw [e1, e2, Fits1, Fits2, or_comm]
  constructor
  · rintro ⟨⟨h1, h2⟩, hj⟩
    exact ⟨⟨h1, fun j hm => (hj j hm).1⟩, h2, fun j hm => (hj j hm).2⟩
  · rintro ⟨⟨h1, hj1⟩, h2, hj2⟩
    exact ⟨⟨h1, h2⟩, fun j hm => ⟨hj1 j hm, hj2 j hm⟩⟩

theorem agrees_key1Insert_iff (h : Agrees m) :
    Agrees (m.key1Insert k1 value) ↔ m.Fits1 k1 value := by
  have f2 (j w) : (m.key1Insert k1 value).map2.find j = some w ↔
      m.map2.find j = some w ∨ (False ∧ j = ((m.map3.find value).map (·.2)).getD 0 ∧ w = value) := by
    simp [key1Insert]
  rw [agrees_iff_of_assign h (fun j w => StdMap.find_insert_eq_some ..) f2
    (fun w => StdMap.find_assign ..)]
  have e1 : (m.key1Insert k1 value).map1.find k1 = some value ↔ _ := StdMap.find_insert_self_iff ..
  rw [e1, Fits1]
  -- the second key stays what it is
  cases hv : m.map3.find value with
  | none => simp
  | some j =>
    have hj : m.map2.find j.2 = some value ∨ j.2 = 0 := (h.keys value j.1 j.2 hv).2
    simp [key1Insert, hj]

theorem agrees_key2insert_iff (h : Agrees m) :
    Agrees (m.key2insert k1 k2 value) ↔ (m.map3.find value).isSome ∧ m.Fits2 k2 value := by
  have f1 (j w) : (m.key2insert k1 k2 value).map1.find j = some w ↔
      m.map1.find j = some w ∨ (False ∧ j = ((m.map3.find value).map (·.1)).getD k1 ∧ w = value) := by
    simp [key2insert]
  rw [agrees_iff_of_assign h f1 (fun j w => StdMap.find_insert_eq_some ..)
    (fun w => StdMap.find_assign ..)]
  have e2 : (m.key2insert k1 k2 value).map2.find k2 = some value ↔ _ := StdMap.find_insert_self_iff ..
  rw [e2, Fits2, or_comm]
  cases hv : m.map3.find value with
  | none =>
    -- the value is under no first key, also not under the one that is given
    have hk : m.map1.find k1 ≠ some value := fun hk => by
      obtain ⟨i, hi⟩ := h.value1 k1 value hk
      simp [hv] at hi
    simp [key2insert, hk]
  | some j =>
    have hj : m.map1.find j.1 = some value := (h.keys value j.1 j.2 hv).1
    simp [key2insert, hj]

/-! ### Deletion -/

omit [OfNat κ₂ 0] in
theorem del_of_absent (hk : m.map1.find k1 = none) :
    m.DelExact k1 ↔ m.map3.begin = none := by
  unfold DelExact key1Del
  simp only [hk]
  cases hb : m.map3.begin with
  | none => simp
  | some x =>
    simp only [reduceCtorEq, iff_false]
    exact fun he => StdMap.erase_begin_ne hb (congrArg map3 he)

theorem begin_eq_none_iff (h : Agrees m) : m.map3.begin = none ↔ m.map1.pairs = [] := by
  constructor
  · intro hb
    by_contra hp
    obtain ⟨⟨j, w⟩, hx⟩ := List.exists_mem_of_ne_nil _ hp
    obtain ⟨i, hi⟩ := h.value1 j w (StdMap.find_of_mem_pairs hx)
    have hm := StdMap.mem_pairs_of_find hi
    rw [List.head?_eq_none_iff.mp hb] at hm
    exact List.not_mem_nil hm
  · intro hp
    cases hb : m.map3.begin with
    | none => rfl
    | some x =>
      have hm := StdMap.mem_pairs_of_find (h.keys x.1 x.2.1 x.2.2 (StdMap.find_begin hb)).1
      rw [hp] at hm
      exact absurd hm List.not_mem_nil

theorem delExact_iff (h : Agrees m) (hk : m.map1.find k1 = some value) :
    m.DelExact k1 ↔ ∀ j ∈ m.map3.find value, ∀ w ∈ m.map2.find j.2, w = value := by
  obtain ⟨k2, h3⟩ := h.value1 k1 value hk
  have f1 (j) : (m.key1Del k1).1.map1.find j = _ := key1Find_key1Del j
  have f2 (j) : (m.key1Del k1).1.map2.find j = if k2 = j then none else m.map2.find j := by
    have h2 : (m.key1Del k1).1.key2Find j = _ := key2Find_key1Del hk
    simp only [secondKey, h3, Option.map_some, Option.some.injEq] at h2
    exact h2
  have f3 (w) : (m.key1Del k1).1.map3.find w = if w = value then none else m.map3.find w := by
    simp only [key1Del, hk]
    exact StdMap.find_erase ..
  unfold DelExact
  simp only [hk, h3, Option.mem_def, Option.some.injEq, forall_eq', f1, f2, f3]
  constructor
  · rintro ⟨-, h2, -⟩ w hw
    have := h2 k2
    rw [if_pos rfl, hw] at this
    split_ifs at this with hv
    exact Option.some.inj hv
  · intro hw
    refine ⟨fun j => rfl, fun j => ?_, fun w => trivial⟩
    by_cases hj : k2 = j
    · subst hj
      rw [if_pos rfl]
      cases h2 : m.map2.find k2 with
      | none => simp
      | some w => simp [hw w h2]
    · rw [if_neg hj, if_neg]
      intro h2
      obtain ⟨i, hi⟩ := h.value2 j value h2
      rw [h3] at hi
      exact hj (by grind)

/-- What an exact deletion leaves agrees. -/
theorem Agrees.key1Del (h : Agrees m) (hd : m.DelExact k1) : Agrees (m.key1Del k1).1 := by
  unfold DelExact at hd
  cases hk : m.map1.find k1 with
  | none =>
    simp only [hk] at hd
    rwa [hd]
  | some value =>
    simp only [hk] at hd
    obtain ⟨f1, f2, f3⟩ := hd
    obtain ⟨k2, h3⟩ := h.value1 k1 value hk
    constructor
    · intro j w hw
      rw [f1] at hw
      split_ifs at hw with hj
      obtain ⟨i, hi⟩ := h.value1 j w hw
      refine ⟨i, ?_⟩
      rw [f3, if_neg, hi]
      rintro rfl
      exact hj (by grind)
    · intro j w hw
      rw [f2] at hw
      split_ifs at hw with hj
      obtain ⟨i, hi⟩ := h.value2 j w hw
      refine ⟨i, ?_⟩
      rw [f3, if_neg, hi]
      rintro rfl
      exact hj hw
    · intro w j1 j2 hw
      rw [f3] at hw
      split_ifs at hw with hv
      obtain ⟨h1, h2⟩ := h.keys w j1 j2 hw
      refine ⟨?_, h2.imp_left fun h2 => ?_⟩
      · rw [f1, if_neg, h1]
        rintro rfl
        exact hv (Option.some.inj (h1.symm.trans hk))
      · rw [f2, if_neg, h2]
        rw [h2]
        exact fun he => hv (Option.some.inj he)

/-! ### Runs -/

theorem sound_iff (h : Agrees m) (op : Op κ₁ κ₂ τ) : m.Sound op ↔ m.Keyed op := by
  cases op with
  | insert k1 k2 value =>
    simpa [Sound, Keyed, apply] using agrees_insert_iff h
  | key1Insert k1 value =>
    simpa [Sound, Keyed, apply] using agrees_key1Insert_iff h
  | key2insert k1 k2 value =>
    simpa [Sound, Keyed, apply] using agrees_key2insert_iff h
  | key1Del k1 =>
    have hd : m.Sound (.key1Del k1) ↔ m.DelExact k1 := by
      constructor
      · exact fun hs => hs.2 k1 rfl
      · intro hd
        refine ⟨h.key1Del hd, ?_⟩
        rintro j ⟨⟩
        exact hd
    rw [hd]
    dsimp only [Keyed]
    cases hk : m.map1.find k1 with
    | none => exact (del_of_absent hk).trans (begin_eq_none_iff h)
    | some value => exact delExact_iff h hk

theorem sound_run_iff_of_agrees (h : Agrees m) (ops : List (Op κ₁ κ₂ τ)) :
    Runs.Steps advance Sound m ops ↔ Runs.Steps advance Keyed m ops := by
  induction ops generalizing m with
  | nil => exact Iff.rfl
  | cons op ops ih =>
    rw [Runs.steps_cons, Runs.steps_cons, ← sound_iff h op]
    exact and_congr_right fun hs => ih hs.1

/-- In a run from the empty map the three maps agree after every operation, and every
deletion takes the value of its key alone, if and only if every operation is given keys
that fit. -/
theorem sound_run_iff (ops : List (Op κ₁ κ₂ τ)) :
    Runs.Steps advance Sound {} ops ↔ Runs.Steps advance Keyed {} ops :=
  sound_run_iff_of_agrees Agrees.empty ops

/-- A value that is given another second key stays under the old one for good, and a key
that is not there takes a value from the third map. -/
theorem sound_run_fails :
    ¬ Runs.Steps advance Sound ({} : TwoKeyMap ℕ ℕ ℕ)
      [.key1Insert 1 7, .key2insert 1 101 7, .key2insert 1 102 7, .key1Del 1] ∧
    ¬ Runs.Steps advance Sound ({} : TwoKeyMap ℕ ℕ ℕ) [.key1Insert 1 7, .key1Del 2] := by
  rw [sound_run_iff_of_agrees Agrees.empty, sound_run_iff_of_agrees Agrees.empty]
  decide

end KkLicode.Kcp.TwoKeyMap
