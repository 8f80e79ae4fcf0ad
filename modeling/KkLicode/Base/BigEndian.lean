import Mathlib.Algebra.Group.Nat.Defs
import Mathlib.Data.List.Basic
import Mathlib.Data.Nat.Notation

/-! Numbers as bytes in network order. -/

namespace KkLicode.Base.BigEndian

/-- The lowest `w` bytes of a number, the highest of them first. -/
def encode : ℕ → ℕ → List UInt8
  | 0, _ => []
  | w + 1, n => encode w (n / 256) ++ [UInt8.ofNat n]

def decode (b : List UInt8) : ℕ := b.foldl (fun n x => n * 256 + x.toNat) 0

@[simp] theorem length_encode (w n : ℕ) : (encode w n).length = w := by
  induction w generalizing n with
  | zero => rfl
  | succ w ih => simp [encode, ih]

theorem decode_encode (w n : ℕ) : decode (encode w n) = n % 256 ^ w := by
  induction w generalizing n with
  | zero => simp [encode, decode, Nat.mod_one]
  | succ w ih =>
    have hlast : decode (encode (w + 1) n) = decode (encode w (n / 256)) * 256 + n % 256 := by
      simp [encode, decode]
    rw [hlast, ih, Nat.pow_succ, Nat.mul_comm (256 ^ w), Nat.mod_mul]
    omega

theorem decode_encode_of_lt {w n : ℕ} (h : n < 256 ^ w) : decode (encode w n) = n := by
  rw [decode_encode, Nat.mod_eq_of_lt h]

/-- A number in the middle of a buffer. -/
theorem take_drop_encode (a b : List UInt8) (w n : ℕ) {i : ℕ} (ha : a.length = i) :
    ((a ++ (encode w n ++ b)).drop i).take w = encode w n := by
  rw [List.drop_left' ha, List.take_left' (length_encode w n)]

end KkLicode.Base.BigEndian
