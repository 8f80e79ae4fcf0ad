import Mathlib.Data.Nat.Notation

/-! Serial numbers of sixteen bits. `ahead a b` says how many steps lead from `a`
up to `b` on the circle of numbers. Every distance can be read off the distances
from one common base, which turns statements about wrapped numbers into linear
arithmetic. -/

namespace KkLicode.Base.Serial

/-- The number of steps from `a` up to `b`. -/
def ahead (a b : UInt16) : ℕ := (b - a).toNat

theorem ahead_lt (a b : UInt16) : ahead a b < 65536 := (b - a).toNat_lt

/-- All distances are differences of distances from a base. -/
theorem ahead_base (c a b : UInt16) :
    ahead a b = (ahead c b + 65536 - ahead c a) % 65536 := by
  have ha := a.toNat_lt
  have hb := b.toNat_lt
  have hc := c.toNat_lt
  simp only [ahead, UInt16.toNat_sub]
  omega

@[simp] theorem ahead_self (a : UInt16) : ahead a a = 0 := by simp [ahead]

theorem ahead_eq_zero {a b : UInt16} : ahead a b = 0 ↔ a = b := by
  refine ⟨fun h => ?_, fun h => by simp [h]⟩
  have ha := a.toNat_lt
  have hb := b.toNat_lt
  simp only [ahead, UInt16.toNat_sub] at h
  exact UInt16.toNat_inj.mp (by omega)

/-- Numbers at the same distance from a base are equal. -/
theorem eq_of_ahead_eq {c a b : UInt16} (h : ahead c a = ahead c b) : a = b := by
  have := ahead_lt c b
  refine ahead_eq_zero.mp ?_
  rw [ahead_base c, h]
  omega

theorem eq_of_ahead_eq' {c a b : UInt16} (h : ahead a c = ahead b c) : a = b := by
  have := ahead_lt a b
  have := ahead_lt b c
  refine ahead_eq_zero.mp ?_
  have := ahead_base a b c
  omega

theorem ahead_add_ofNat (a : UInt16) (n : ℕ) : ahead a (a + UInt16.ofNat n) = n % 65536 := by
  have ha := a.toNat_lt
  simp only [ahead, UInt16.toNat_sub, UInt16.toNat_add, UInt16.toNat_ofNat']
  omega

theorem ahead_sub_ofNat (a : UInt16) (n : ℕ) : ahead (a - UInt16.ofNat n) a = n % 65536 := by
  have ha := a.toNat_lt
  simp only [ahead, UInt16.toNat_sub, UInt16.toNat_ofNat']
  omega

@[simp] theorem ahead_add_one (a : UInt16) : ahead a (a + 1) = 1 := ahead_add_ofNat a 1

theorem add_ahead (a b : UInt16) : a + UInt16.ofNat (ahead a b) = b :=
  eq_of_ahead_eq (c := a) (by rw [ahead_add_ofNat, Nat.mod_eq_of_lt (ahead_lt a b)])

theorem ofNat_add_one (n : ℕ) : UInt16.ofNat (n + 1) = UInt16.ofNat n + 1 := UInt16.ofNat_add n 1

/-- Naturals less than a lap apart are determined by their serial numbers. -/
theorem ofNat_inj_of_lt {m n : ℕ} (h : UInt16.ofNat m = UInt16.ofNat n) (h1 : m < n + 65536)
    (h2 : n < m + 65536) : m = n := by
  have := congrArg UInt16.toNat h
  simp only [UInt16.toNat_ofNat'] at this
  omega

theorem ahead_ofNat (m n : ℕ) (h : m ≤ n) :
    ahead (UInt16.ofNat m) (UInt16.ofNat n) = (n - m) % 65536 := by
  simp only [ahead, UInt16.toNat_sub, UInt16.toNat_ofNat']
  omega

theorem ofInt_toNat (n : UInt16) : UInt16.ofInt n.toNat = n := by
  have hn := n.toNat_lt
  have h : ((n.toNat : Int) % 2 ^ 16).toNat = n.toNat := by omega
  rw [UInt16.ofInt, h, UInt16.ofNat_toNat]

theorem ofInt_natCast (n : ℕ) : (UInt16.ofInt n) = .ofNat n := by
  apply UInt16.toNat_inj.mp
  rw [UInt16.ofInt, UInt16.toNat_ofNat', UInt16.toNat_ofNat']
  omega

theorem ofInt_sub (a b : Int) : UInt16.ofInt (a - b) = .ofInt a - .ofInt b := by
  rw [Int.sub_eq_add_neg, UInt16.ofInt_add, UInt16.ofInt_neg, UInt16.sub_eq_add_neg]

/-- The signed difference is the shorter way. -/
theorem toInt_sub (a b : UInt16) : (b - a).toInt16.toInt =
    if ahead a b < 32768 then (ahead a b : Int) else ahead a b - 65536 := by
  rw [Int16.toInt, UInt16.toBitVec_toInt16, BitVec.toInt_eq_toNat_cond, UInt16.toNat_toBitVec, ahead]
  by_cases h : (b - a).toNat < 32768
  · rw [if_pos h, if_pos (by omega)]
  · rw [if_neg h, if_neg (by omega)]
    rfl

end KkLicode.Base.Serial
