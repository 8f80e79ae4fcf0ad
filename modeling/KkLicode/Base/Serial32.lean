import Mathlib.Algebra.Group.Nat.Defs
import Mathlib.Algebra.Ring.Int.Defs
import Mathlib.Tactic.SplitIfs

/-! Serial numbers of 32 bits. The signed difference of the serial numbers of two
naturals is their difference as long as they are less than half a lap apart. -/

namespace KkLicode.Base.Serial32

/-- The number of steps from `a` up to `b`. -/
def ahead (a b : UInt32) : ℕ := (b - a).toNat

variable {a b c : UInt32}

theorem ahead_lt (a b : UInt32) : ahead a b < 2 ^ 32 := (b - a).toNat_lt

/-- All distances are differences of distances from a base. -/
theorem ahead_base (c a b : UInt32) : ahead a b = (ahead c b + 2 ^ 32 - ahead c a) % 2 ^ 32 := by
  have ha := a.toNat_lt
  have hb := b.toNat_lt
  have hc := c.toNat_lt
  simp only [ahead, UInt32.toNat_sub]
  omega

@[simp] theorem ahead_self (a : UInt32) : ahead a a = 0 := by simp [ahead]

theorem ahead_eq_zero : ahead a b = 0 ↔ a = b := by
  refine ⟨fun h => ?_, fun h => by simp [h]⟩
  have ha := a.toNat_lt
  have hb := b.toNat_lt
  simp only [ahead, UInt32.toNat_sub] at h
  exact UInt32.toNat_inj.mp (by omega)

theorem ahead_injective (h : ahead c a = ahead c b) : a = b := by
  have := ahead_lt c b
  refine ahead_eq_zero.mp ?_
  rw [ahead_base c, h]
  omega

theorem ahead_add_one (h : ahead a b + 1 < 2 ^ 32) : ahead a (b + 1) = ahead a b + 1 := by
  have ha := a.toNat_lt
  have hb := b.toNat_lt
  simp only [ahead, UInt32.toNat_sub, UInt32.toNat_add, UInt32.toNat_one] at h ⊢
  omega

theorem add_one_ahead (h : ahead a b ≠ 0) : ahead (a + 1) b + 1 = ahead a b := by
  have ha := a.toNat_lt
  have hb := b.toNat_lt
  simp only [ahead, UInt32.toNat_sub, UInt32.toNat_add, UInt32.toNat_one] at h ⊢
  omega

theorem ahead_ofNat {m n : ℕ} (h : m ≤ n) (hlap : n < m + 2 ^ 32) :
    ahead (.ofNat m) (.ofNat n) = n - m := by
  simp only [ahead, UInt32.toNat_sub, UInt32.toNat_ofNat']
  omega

theorem ofNat_add_ahead (n : ℕ) (a : UInt32) : UInt32.ofNat (n + ahead (.ofNat n) a) = a := by
  have ha := a.toNat_lt
  apply UInt32.toNat_inj.mp
  simp only [ahead, UInt32.toNat_sub, UInt32.toNat_ofNat']
  omega

theorem ofNat_sub_ahead {n : ℕ} (h : ahead a (.ofNat n) ≤ n) :
    UInt32.ofNat (n - ahead a (.ofNat n)) = a := by
  have ha := a.toNat_lt
  apply UInt32.toNat_inj.mp
  simp only [ahead, UInt32.toNat_sub, UInt32.toNat_ofNat'] at h ⊢
  omega

/-- Naturals less than a lap apart are determined by their serial numbers. -/
theorem ofNat_inj_of_lt {m n : ℕ} (h : UInt32.ofNat m = .ofNat n) (h1 : m < n + 2 ^ 32)
    (h2 : n < m + 2 ^ 32) : m = n := by
  have := congrArg UInt32.toNat h
  simp only [UInt32.toNat_ofNat'] at this
  omega

/-- The signed difference `later - earlier`. -/
def diff (later earlier : UInt32) : ℤ := (later - earlier).toInt32.toInt

/-- The signed difference is the shorter way. -/
theorem diff_eq (a b : UInt32) :
    diff b a = if ahead a b < 2 ^ 31 then (ahead a b : ℤ) else ahead a b - 2 ^ 32 := by
  rw [diff, Int32.toInt, UInt32.toBitVec_toInt32, BitVec.toInt_eq_toNat_cond, UInt32.toNat_toBitVec,
    ahead]
  by_cases h : (b - a).toNat < 2 ^ 31
  · rw [if_pos h, if_pos (by omega)]
  · rw [if_neg h, if_neg (by omega)]
    rfl

theorem diff_nonneg : 0 ≤ diff b a ↔ ahead a b < 2 ^ 31 := by
  have := ahead_lt a b
  rw [diff_eq]
  split_ifs <;> omega

theorem diff_pos : 0 < diff b a ↔ ahead a b ≠ 0 ∧ ahead a b < 2 ^ 31 := by
  have := ahead_lt a b
  rw [diff_eq]
  split_ifs <;> omega

/-- In half a lap from a base the signed difference says which number is farther. -/
theorem diff_pos_iff (ha : ahead c a < 2 ^ 31) (hb : ahead c b < 2 ^ 31) :
    0 < diff b a ↔ ahead c a < ahead c b := by
  have := ahead_base c a b
  rw [diff_pos]
  omega

/-- Where the naturals are less than half a lap apart, so is the difference theirs. -/
theorem diff_ofNat {m n : ℕ} (h1 : m < n + 2 ^ 31) (h2 : n < m + 2 ^ 31) :
    diff (.ofNat m) (.ofNat n) = m - n := by
  rw [diff_eq]
  rcases Nat.lt_or_ge m n with h | h
  · have hback := ahead_ofNat (by omega : m ≤ n) (by omega)
    have hzero := ahead_base (.ofNat m) (.ofNat n) (.ofNat m)
    rw [hback, ahead_self] at hzero
    rw [hzero, if_neg (by omega)]
    omega
  · rw [ahead_ofNat h (by omega), if_pos (by omega), Int.ofNat_sub h]

end KkLicode.Base.Serial32
