import Mathlib.Algebra.Order.Group.Int
import KkLicode.Base.Serial

/-! Serial numbers without wraps. The serial number of an integer is its residue;
an integer is found again from its serial number when it is known to lie in a
window of 65536 integers. The windows here begin `late` before a highest number. -/

namespace KkLicode.Base.Serial

theorem ahead_ofInt (a b : ℤ) : (ahead (.ofInt a) (.ofInt b) : ℤ) = (b - a) % 65536 := by
  have h : (UInt16.ofInt b - UInt16.ofInt a).toNat = ((b - a) % 65536).toNat := by
    rw [← ofInt_sub, UInt16.ofInt, UInt16.toNat_ofNat']
    omega
  rw [ahead, h]
  omega

theorem ofInt_toNat_eq (x : ℤ) : ((UInt16.ofInt x).toNat : ℤ) = x % 65536 := by
  rw [UInt16.ofInt, UInt16.toNat_ofNat']
  omega

theorem ofInt_add_ahead (a : ℤ) (n : UInt16) : UInt16.ofInt (a + ahead (.ofInt a) n) = n := by
  rw [UInt16.ofInt_add, ofInt_natCast, add_ahead]

/-- The integer with the serial number `n` that is at most `late` behind `highest`. -/
def unwrap (late : ℕ) (highest : ℤ) (n : UInt16) : ℤ :=
  highest - late + ahead (.ofInt (highest - late)) n

variable {late : ℕ} {highest x : ℤ} {n : UInt16}

@[simp] theorem ofInt_unwrap : UInt16.ofInt (unwrap late highest n) = n := ofInt_add_ahead _ _

theorem le_unwrap (late : ℕ) (highest : ℤ) (n : UInt16) : highest - late ≤ unwrap late highest n := by
  unfold unwrap
  omega

theorem unwrap_lt (late : ℕ) (highest : ℤ) (n : UInt16) : unwrap late highest n < highest - late + 65536 := by
  have := ahead_lt (.ofInt (highest - late)) n
  unfold unwrap
  omega

/-- An integer in the window is found again. -/
theorem unwrap_eq (hx : UInt16.ofInt x = n) (hlow : highest - late ≤ x)
    (hhigh : x < highest - late + 65536) : unwrap late highest n = x := by
  have h := ahead_ofInt (highest - late) x
  rw [hx] at h
  unfold unwrap
  omega

end KkLicode.Base.Serial
