import Mathlib.Data.Int.Log
import Mathlib.Data.Rat.Floor
import Mathlib.Tactic.Linarith
import Mathlib.Tactic.NormNum
import Mathlib.Tactic.Ring

/-! Double precision numbers as the rationals they stand for. Quotients of machine
integers never leave the normal range, so rounding keeps 53 significant bits and
sends ties to even. -/

namespace KkLicode.Base.Double

/-- The nearest integer, the even one of two. -/
def roundEven (q : ℚ) : ℤ :=
  if q - ⌊q⌋ < 1 / 2 then ⌊q⌋
  else if 1 / 2 < q - ⌊q⌋ then ⌊q⌋ + 1
  else if ⌊q⌋ % 2 = 0 then ⌊q⌋ else ⌊q⌋ + 1

/-- The nearest double. -/
def toDouble (q : ℚ) : ℚ :=
  roundEven (q * 2 ^ (52 - Int.log 2 |q|)) / 2 ^ (52 - Int.log 2 |q|)

example : toDouble (1 / 10) = 3602879701896397 / 36028797018963968 := by decide +kernel

/-! ### Rounding keeps the order -/

theorem floor_le_roundEven (q : ℚ) : ⌊q⌋ ≤ roundEven q := by
  unfold roundEven
  split_ifs <;> omega

theorem roundEven_le_floor_add_one (q : ℚ) : roundEven q ≤ ⌊q⌋ + 1 := by
  unfold roundEven
  split_ifs <;> omega

theorem roundEven_intCast (n : ℤ) : roundEven n = n := by
  rw [roundEven, Int.floor_intCast, sub_self, if_pos (by norm_num)]

theorem roundEven_mono {q r : ℚ} (h : q ≤ r) : roundEven q ≤ roundEven r := by
  rcases (Int.floor_le_floor h).lt_or_eq with hlt | heq
  · calc roundEven q ≤ ⌊q⌋ + 1 := roundEven_le_floor_add_one q
      _ ≤ ⌊r⌋ := hlt
      _ ≤ roundEven r := floor_le_roundEven r
  · -- the same integers are below and above both
    unfold roundEven
    rw [heq]
    split_ifs with h₁ h₂ h₃ h₄ h₅ h₆
    all_goals first | omega | (exfalso; linarith)

theorem two_zpow_pos (n : ℤ) : (0 : ℚ) < 2 ^ n := zpow_pos two_pos n

/-- A positive number and its rounding are between the same powers of two. -/
theorem zpow_log_le_toDouble {q : ℚ} (hq : 0 < q) : 2 ^ Int.log 2 q ≤ toDouble q := by
  have hlow : ((2 ^ 52 : ℤ) : ℚ) ≤ q * 2 ^ (52 - Int.log 2 q) := by
    calc ((2 ^ 52 : ℤ) : ℚ) = 2 ^ Int.log 2 q * 2 ^ (52 - Int.log 2 q) := by
          rw [← zpow_add₀ two_ne_zero, add_sub_cancel]
          norm_num
      _ ≤ q * 2 ^ (52 - Int.log 2 q) :=
          mul_le_mul_of_nonneg_right (Int.zpow_log_le_self one_lt_two hq) (two_zpow_pos _).le
  have hround := roundEven_mono hlow
  rw [roundEven_intCast] at hround
  rw [toDouble, abs_of_pos hq, le_div_iff₀ (two_zpow_pos _), ← zpow_add₀ two_ne_zero, add_sub_cancel]
  exact_mod_cast hround

theorem toDouble_le_zpow_log {q : ℚ} (hq : 0 < q) : toDouble q ≤ 2 ^ (Int.log 2 q + 1) := by
  have hsum : Int.log 2 q + 1 + (52 - Int.log 2 q) = 53 := by ring
  have hhigh : q * 2 ^ (52 - Int.log 2 q) ≤ ((2 ^ 53 : ℤ) : ℚ) := by
    calc q * 2 ^ (52 - Int.log 2 q) ≤ 2 ^ (Int.log 2 q + 1) * 2 ^ (52 - Int.log 2 q) :=
          mul_le_mul_of_nonneg_right (Int.lt_zpow_succ_log_self one_lt_two q).le (two_zpow_pos _).le
      _ = ((2 ^ 53 : ℤ) : ℚ) := by
          rw [← zpow_add₀ two_ne_zero, hsum]
          norm_num
  have hround := roundEven_mono hhigh
  rw [roundEven_intCast] at hround
  rw [toDouble, abs_of_pos hq, div_le_iff₀ (two_zpow_pos _), ← zpow_add₀ two_ne_zero, hsum]
  exact_mod_cast hround

theorem toDouble_pos {q : ℚ} (hq : 0 < q) : 0 < toDouble q :=
  (two_zpow_pos _).trans_le (zpow_log_le_toDouble hq)

theorem toDouble_mono {q r : ℚ} (hq : 0 < q) (h : q ≤ r) : toDouble q ≤ toDouble r := by
  have hr := hq.trans_le h
  rcases (Int.log_mono_right (b := 2) hq h).lt_or_eq with hlt | heq
  · calc toDouble q ≤ 2 ^ (Int.log 2 q + 1) := toDouble_le_zpow_log hq
      _ ≤ 2 ^ Int.log 2 r := zpow_le_zpow_right₀ one_le_two hlt
      _ ≤ toDouble r := zpow_log_le_toDouble hr
  · rw [toDouble, toDouble, abs_of_pos hq, abs_of_pos hr, heq]
    have hround := roundEven_mono
      (mul_le_mul_of_nonneg_right h (two_zpow_pos (52 - Int.log 2 r)).le)
    exact div_le_div_of_nonneg_right (Int.cast_le.mpr hround) (two_zpow_pos _).le

theorem one_le_toDouble {q : ℚ} (h : 1 ≤ q) : 1 ≤ toDouble q := by
  have hlog : (0 : ℤ) ≤ Int.log 2 q := by
    have := Int.log_mono_right (b := 2) one_pos h
    rwa [Int.log_one_right] at this
  calc (1 : ℚ) ≤ 2 ^ Int.log 2 q := one_le_zpow₀ one_le_two hlog
    _ ≤ toDouble q := zpow_log_le_toDouble (one_pos.trans_le h)

/-! ### Rounding errors -/

/-- An integer is rounded to by at most a half. -/
theorem abs_roundEven_sub_le (q : ℚ) : |roundEven q - q| ≤ 1 / 2 := by
  have h0 := Int.floor_le q
  have h1 := Int.lt_floor_add_one q
  rw [abs_le]
  unfold roundEven
  split_ifs <;> push_cast <;> constructor <;> linarith

/-- The relative error of a rounding. -/
theorem abs_toDouble_sub_le {q : ℚ} (hq : 0 < q) : |toDouble q - q| ≤ q / 2 ^ 53 := by
  have hpos := two_zpow_pos (52 - Int.log 2 q)
  have hround := abs_roundEven_sub_le (q * 2 ^ (52 - Int.log 2 q))
  have hulp : (1 : ℚ) / 2 ≤ q / 2 ^ 53 * 2 ^ (52 - Int.log 2 q) := by
    have hlog : (2 : ℚ) ^ Int.log 2 q * 2 ^ (52 - Int.log 2 q) = 2 ^ 52 := by
      rw [← zpow_add₀ two_ne_zero, add_sub_cancel]
      norm_num
    have hle := mul_le_mul_of_nonneg_right (Int.zpow_log_le_self (b := 2) one_lt_two hq) hpos.le
    push_cast at hle
    rw [hlog] at hle
    rw [div_mul_eq_mul_div, le_div_iff₀ (by positivity)]
    linarith
  rw [toDouble, abs_of_pos hq, ← mul_le_mul_iff_left₀ hpos]
  calc |(roundEven (q * 2 ^ (52 - Int.log 2 q)) : ℚ) / 2 ^ (52 - Int.log 2 q) - q| *
        2 ^ (52 - Int.log 2 q)
      = |roundEven (q * 2 ^ (52 - Int.log 2 q)) - q * 2 ^ (52 - Int.log 2 q)| := by
        rw [← abs_of_pos hpos, ← abs_mul, abs_of_pos hpos, sub_mul, div_mul_cancel₀ _ hpos.ne']
    _ ≤ 1 / 2 := hround
    _ ≤ q / 2 ^ 53 * 2 ^ (52 - Int.log 2 q) := hulp

/-- A number of at most 53 bits is a double. -/
theorem toDouble_natCast {n : ℕ} (hn : n < 2 ^ 53) : toDouble n = n := by
  rcases Nat.eq_zero_or_pos n with rfl | hpos
  · simp [toDouble, roundEven]
  have hq : (0 : ℚ) < n := by exact_mod_cast hpos
  have hlog : Int.log 2 (n : ℚ) ≤ 52 := by
    have hlt : (n : ℚ) < (2 : ℕ) ^ (53 : ℤ) := by exact_mod_cast hn
    have := (Int.lt_zpow_iff_log_lt one_lt_two hq).mp hlt
    omega
  obtain ⟨k, hk⟩ := Int.eq_ofNat_of_zero_le (sub_nonneg.mpr hlog)
  have hint : (n : ℚ) * 2 ^ (52 - Int.log 2 (n : ℚ)) = ((n * 2 ^ k : ℕ) : ℤ) := by
    rw [hk]
    push_cast
    rfl
  rw [toDouble, abs_of_pos hq, hint, roundEven_intCast, ← hint,
    mul_div_cancel_right₀ _ (two_zpow_pos _).ne']

/-- The integer part of the quotient of two unsigned numbers, taken in doubles. -/
def quotient (a b : ℕ) : ℕ := ⌊toDouble (toDouble a / toDouble b)⌋₊

/-- The quotient of a number of at most 53 bits is rounded between the same integers. -/
theorem quotient_eq_div {a b : ℕ} (ha : a < 2 ^ 53) (hb : 0 < b) (hb' : b < 2 ^ 53) :
    quotient a b = a / b := by
  rw [quotient, toDouble_natCast ha, toDouble_natCast hb']
  rcases Nat.eq_zero_or_pos a with rfl | hpos
  · simp [toDouble, roundEven]
  have hbq : (0 : ℚ) < b := by exact_mod_cast hb
  have hq : (0 : ℚ) < a / b := div_pos (by exact_mod_cast hpos) hbq
  have hsplit : (a : ℚ) = b * (a / b : ℕ) + (a % b : ℕ) := by
    exact_mod_cast (Nat.div_add_mod a b).symm
  have hmod : ((a % b : ℕ) : ℚ) + 1 ≤ b := by exact_mod_cast Nat.mod_lt a hb
  have hhigh := (abs_le.mp (abs_toDouble_sub_le hq)).2
  -- the error is less than the distance to the next integer
  have herr : (a : ℚ) / b / 2 ^ 53 < 1 / b := by
    rw [div_right_comm]
    refine div_lt_div_of_pos_right ?_ hbq
    rw [div_lt_one (by positivity)]
    exact_mod_cast ha
  rw [Nat.floor_eq_iff (toDouble_pos hq).le]
  constructor
  · rcases Nat.eq_zero_or_pos (a / b) with hz | hz
    · rw [hz, Nat.cast_zero]
      exact (toDouble_pos hq).le
    · rw [← toDouble_natCast ((Nat.div_le_self a b).trans_lt ha)]
      refine toDouble_mono (by exact_mod_cast hz) ?_
      rw [le_div_iff₀ hbq]
      linarith [Nat.cast_nonneg (α := ℚ) (a % b)]
  · have hquot : (a : ℚ) / b ≤ (a / b : ℕ) + 1 - 1 / b := by
      rw [div_le_iff₀ hbq, sub_mul, one_div_mul_cancel hbq.ne']
      linarith
    linarith

/-- No quotient is above the exact one by more than two rounding errors. -/
theorem quotient_le {a b : ℕ} (hb : 0 < b) (hb' : b < 2 ^ 53) :
    (quotient a b * b : ℚ) ≤ a * (1 + 1 / 2 ^ 51) := by
  rcases Nat.eq_zero_or_pos a with rfl | hpos
  · simp [quotient, toDouble, roundEven]
  have hbq : (0 : ℚ) < b := by exact_mod_cast hb
  have haq : (0 : ℚ) < a := by exact_mod_cast hpos
  have hq : (0 : ℚ) < toDouble a / b := div_pos (toDouble_pos haq) hbq
  have hsum := (abs_le.mp (abs_toDouble_sub_le haq)).2
  have hquot := (abs_le.mp (abs_toDouble_sub_le hq)).2
  have hfloor : (quotient a b : ℚ) ≤ toDouble (toDouble a / b) := by
    rw [quotient, toDouble_natCast hb']
    exact Nat.floor_le (toDouble_pos hq).le
  calc (quotient a b * b : ℚ) ≤ (toDouble a / b * (1 + 1 / 2 ^ 53)) * b := by
        refine mul_le_mul_of_nonneg_right ?_ hbq.le
        linarith
    _ = toDouble a * (1 + 1 / 2 ^ 53) := by
        rw [mul_right_comm, div_mul_cancel₀ _ hbq.ne']
    _ ≤ a * (1 + 1 / 2 ^ 51) := by linarith

end KkLicode.Base.Double
