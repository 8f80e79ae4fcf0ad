import Mathlib.Algebra.Order.Group.Nat
import Mathlib.Data.List.Basic
import Mathlib.Data.Nat.Notation

/-! Numbers as bytes, the lowest byte first. -/

namespace KkLicode.Base.LittleEndian

/-- The lowest `w` bytes of a number. -/
def encode : ℕ → ℕ → List UInt8
  | 0, _ => []
  | w + 1, n => UInt8.ofNat n :: encode w (n / 256)

def decode : List UInt8 → ℕ
  | [] => 0
  | x :: b => x.toNat + 256 * decode b

@[simp] theorem length_encode (w n : ℕ) : (encode w n).length = w := by
  induction w generalizing n with
  | zero => rfl
  | succ w ih => rw [encode, List.length_cons, ih]

theorem decode_encode (w n : ℕ) : decode (encode w n) = n % 256 ^ w := by
  induction w generalizing n with
  | zero => simp [encode, decode, Nat.mod_one]
  | succ w ih =>
    have hpow : 256 ^ (w + 1) = 256 * 256 ^ w := Nat.pow_succ'
    rw [encode, decode, ih, UInt8.toNat_ofNat', hpow, Nat.mod_mul]

theorem decode_encode_of_lt {w n : ℕ} (h : n < 256 ^ w) : decode (encode w n) = n := by
  rw [decode_encode, Nat.mod_eq_of_lt h]

/-- The number of `w` bytes that starts at a place of a buffer. -/
def read (b : List UInt8) (i w : ℕ) : ℕ := decode ((b.drop i).take w)

theorem decode_lt (b : List UInt8) : decode b < 256 ^ b.length := by
  induction b with
  | nil => exact Nat.one_pos
  | cons x b ih =>
    have hx : x.toNat < 256 := x.toNat_lt
    rw [decode, List.length_cons, Nat.pow_succ']
    omega

theorem read_lt (b : List UInt8) (i w : ℕ) : read b i w < 256 ^ w :=
  (decode_lt _).trans_le (Nat.pow_le_pow_right (by decide) (List.length_take_le _ _))

/-- A number at the start of a buffer. -/
theorem read_encode (w n : ℕ) (b : List UInt8) : read (encode w n ++ b) 0 w = n % 256 ^ w := by
  rw [read, List.drop_zero, List.take_left' (length_encode w n), decode_encode]

/-- What is written before a number does not change it. -/
theorem read_append (w n : ℕ) (b : List UInt8) (i v : ℕ) :
    read (encode w n ++ b) (w + i) v = read b i v := by
  rw [read, List.drop_append, List.drop_of_length_le (by rw [length_encode]; omega), List.nil_append,
    length_encode, Nat.add_sub_cancel_left, read]

end KkLicode.Base.LittleEndian
