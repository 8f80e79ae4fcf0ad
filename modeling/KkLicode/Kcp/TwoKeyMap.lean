import KkLicode.Base.StdMap

/-! `TKKTwoKeyMap`: values under two keys. A third map remembers the keys of a
value, so that a value that is deleted by its first key leaves the second map
too. A second key that is taken keeps the value it has. -/

namespace KkLicode.Kcp

open Base

structure TwoKeyMap (κ₁ κ₂ τ : Type*) [LinearOrder κ₁] [LinearOrder κ₂] [LinearOrder τ] where
  map1 : StdMap κ₁ τ := .empty
  map2 : StdMap κ₂ τ := .empty
  map3 : StdMap τ (κ₁ × κ₂) := .empty

namespace TwoKeyMap

variable {κ₁ κ₂ τ : Type*} [LinearOrder κ₁] [LinearOrder κ₂] [LinearOrder τ] [OfNat κ₂ 0]

def insert (m : TwoKeyMap κ₁ κ₂ τ) (k1 : κ₁) (k2 : κ₂) (value : τ) : TwoKeyMap κ₁ κ₂ τ where
  map1 := m.map1.insert k1 value
  map2 := m.map2.insert k2 value
  map3 := m.map3.assign value (k1, k2)

def key1Insert (m : TwoKeyMap κ₁ κ₂ τ) (k1 : κ₁) (value : τ) : TwoKeyMap κ₁ κ₂ τ where
  map1 := m.map1.insert k1 value
  map2 := m.map2
  map3 := m.map3.assign value (k1, ((m.map3.find value).map (·.2)).getD 0)

def key2insert (m : TwoKeyMap κ₁ κ₂ τ) (k1 : κ₁) (k2 : κ₂) (value : τ) : TwoKeyMap κ₁ κ₂ τ where
  map1 := m.map1
  map2 := m.map2.insert k2 value
  map3 := m.map3.assign value (((m.map3.find value).map (·.1)).getD k1, k2)

/-- `Key1Del`, with the key the iterator that is returned stands at. Under a key that is not there
the first value of the third map is dropped from it. -/
def key1Del (m : TwoKeyMap κ₁ κ₂ τ) (k1 : κ₁) : TwoKeyMap κ₁ κ₂ τ × Option κ₁ :=
  match m.map1.find k1 with
  | none =>
    ({ m with map3 := match m.map3.begin with
        | none => m.map3
        | some (value, _) => m.map3.erase value }, none)
  | some value =>
    ({ map1 := m.map1.erase k1
       map2 := match m.map3.find value with
        | none => m.map2
        | some (_, k2) => m.map2.erase k2
       map3 := m.map3.erase value }, m.map1.next k1)

def key1Find (m : TwoKeyMap κ₁ κ₂ τ) (k1 : κ₁) : Option τ := m.map1.find k1

def key2Find (m : TwoKeyMap κ₁ κ₂ τ) (k2 : κ₂) : Option τ := m.map2.find k2

def key1begin (m : TwoKeyMap κ₁ κ₂ τ) : Option κ₁ := m.map1.begin.map (·.1)

def key2begin (m : TwoKeyMap κ₁ κ₂ τ) : Option κ₂ := m.map2.begin.map (·.1)

/-- The second key the third map has for a value. -/
def secondKey (m : TwoKeyMap κ₁ κ₂ τ) (value : τ) : Option κ₂ := (m.map3.find value).map (·.2)

variable (m : TwoKeyMap κ₁ κ₂ τ) (k1 k1' : κ₁) (k2 k2' : κ₂) (value value' : τ)

omit [OfNat κ₂ 0] in
@[simp] theorem key1Find_empty : key1Find ({} : TwoKeyMap κ₁ κ₂ τ) k1 = none := rfl

omit [OfNat κ₂ 0] in
@[simp] theorem key2Find_empty : key2Find ({} : TwoKeyMap κ₁ κ₂ τ) k2 = none := rfl

theorem key1Find_key1Insert : (m.key1Insert k1 value).key1Find k1' =
    if k1' = k1 then some ((m.key1Find k1).getD value) else m.key1Find k1' :=
  StdMap.find_insert ..

@[simp] theorem key2Find_key1Insert : (m.key1Insert k1 value).key2Find k2 = m.key2Find k2 := rfl

theorem secondKey_key1Insert : (m.key1Insert k1 value).secondKey value' =
    if value' = value then some ((m.secondKey value).getD 0) else m.secondKey value' := by
  rw [secondKey, key1Insert, StdMap.find_assign]
  split_ifs <;> rfl

omit [OfNat κ₂ 0] in
@[simp] theorem key1Find_key2insert :
    (m.key2insert k1 k2 value).key1Find k1' = m.key1Find k1' := rfl

omit [OfNat κ₂ 0] in
theorem key2Find_key2insert : (m.key2insert k1 k2 value).key2Find k2' =
    if k2' = k2 then some ((m.key2Find k2).getD value) else m.key2Find k2' :=
  StdMap.find_insert ..

omit [OfNat κ₂ 0] in
theorem secondKey_key2insert : (m.key2insert k1 k2 value).secondKey value' =
    if value' = value then some k2 else m.secondKey value' := by
  rw [secondKey, key2insert, StdMap.find_assign]
  split_ifs <;> rfl

/-! ### Deletion -/

variable {m k1 k2 value value'}

omit [OfNat κ₂ 0] in
theorem map1_key1Del (h : m.key1Find k1 = some value) :
    (m.key1Del k1).1.map1 = m.map1.erase k1 := by
  rw [key1Find] at h
  simp only [key1Del, h]

omit [OfNat κ₂ 0] in
theorem key1Del_next (h : m.key1Find k1 = some value) : (m.key1Del k1).2 = m.map1.next k1 := by
  rw [key1Find] at h
  simp only [key1Del, h]

omit [OfNat κ₂ 0] in
theorem key1Find_key1Del :
    (m.key1Del k1).1.key1Find k1' = if k1' = k1 then none else m.key1Find k1' := by
  unfold key1Del key1Find
  cases h : m.map1.find k1 with
  | none =>
    split_ifs with hk
    · exact hk ▸ h
    · rfl
  | some value => exact StdMap.find_erase ..

omit [OfNat κ₂ 0] in
theorem key2Find_key1Del (h : m.key1Find k1 = some value) : (m.key1Del k1).1.key2Find k2 =
    if m.secondKey value = some k2 then none else m.key2Find k2 := by
  rw [key1Find] at h
  unfold key1Del key2Find secondKey
  obtain hp | ⟨p, hp⟩ := Option.eq_none_or_eq_some (m.map3.find value)
  · simp [h, hp]
  · simp [h, hp, StdMap.find_erase, eq_comm]

omit [OfNat κ₂ 0] in
theorem key2Find_key1Del_of_absent (h : m.key1Find k1 = none) :
    (m.key1Del k1).1.key2Find k2 = m.key2Find k2 := by
  rw [key1Find] at h
  simp [key1Del, h, key2Find]

omit [OfNat κ₂ 0] in
theorem secondKey_key1Del (h : m.key1Find k1 = some value) :
    (m.key1Del k1).1.secondKey value' = if value' = value then none else m.secondKey value' := by
  rw [key1Find] at h
  simp only [key1Del, h, secondKey, StdMap.find_erase]
  split_ifs <;> rfl

omit [OfNat κ₂ 0] in
/-- Deletion takes second keys away at most. -/
theorem secondKey_of_key1Del (h : (m.key1Del k1).1.secondKey value = some k2) :
    m.secondKey value = some k2 := by
  cases hf : m.key1Find k1 with
  | some v =>
    rw [secondKey_key1Del hf] at h
    split_ifs at h
    exact h
  | none =>
    rw [key1Find] at hf
    unfold secondKey key1Del at h
    rw [hf] at h
    dsimp only at h
    cases hb : m.map3.begin with
    | none => simpa [hb, secondKey] using h
    | some x =>
      rw [hb, StdMap.find_erase] at h
      split_ifs at h
      · simp at h
      · exact h

end TwoKeyMap

end KkLicode.Kcp
