import Mathlib.Data.List.Basic
import Mathlib.Data.Nat.Notation

/-! Numbers in a buffer of bytes, in network order. Behind the end of the buffer
nothing is written, and zeros are read. -/

namespace KkLicode.Base.Buffer

/-- The bytes of a number of sixteen bits. -/
def short (n : UInt16) : List UInt8 := [(n >>> 8).toUInt8, n.toUInt8]

/-- The bytes of a number of thirty-two bits. -/
def long (n : UInt32) : List UInt8 :=
  [(n >>> 24).toUInt8, (n >>> 16).toUInt8, (n >>> 8).toUInt8, n.toUInt8]

def getShort (data : List UInt8) (i : ℕ) : UInt16 :=
  (data.getD i 0).toUInt16 <<< 8 ||| (data.getD (i + 1) 0).toUInt16

def setShort (data : List UInt8) (i : ℕ) (n : UInt16) : List UInt8 :=
  (data.set i (n >>> 8).toUInt8).set (i + 1) n.toUInt8

def getLong (data : List UInt8) (i : ℕ) : UInt32 :=
  (data.getD i 0).toUInt32 <<< 24 ||| (data.getD (i + 1) 0).toUInt32 <<< 16 |||
    (data.getD (i + 2) 0).toUInt32 <<< 8 ||| (data.getD (i + 3) 0).toUInt32

def setLong (data : List UInt8) (i : ℕ) (n : UInt32) : List UInt8 :=
  (((data.set i (n >>> 24).toUInt8).set (i + 1) (n >>> 16).toUInt8).set (i + 2)
    (n >>> 8).toUInt8).set (i + 3) n.toUInt8

@[simp] theorem length_short (n : UInt16) : (short n).length = 2 := rfl

@[simp] theorem length_long (n : UInt32) : (long n).length = 4 := rfl

variable {data a b : List UInt8} {i j : ℕ} {n : UInt16}

@[simp] theorem length_setShort : (setShort data i n).length = data.length := by
  simp [setShort]

/-- The two bytes make up the number. -/
theorem short_spec (n : UInt16) : (n >>> 8).toUInt8.toUInt16 <<< 8 ||| n.toUInt8.toUInt16 = n := by
  have h8 : (UInt16.toBitVec 8 % 16).toNat = 8 := rfl
  refine UInt16.eq_of_toBitVec_eq (BitVec.eq_of_getLsbD_eq fun i hi => ?_)
  simp only [UInt16.toBitVec_or, UInt16.toBitVec_shiftLeft, UInt16.toBitVec_shiftRight,
    UInt8.toBitVec_toUInt16, UInt16.toBitVec_toUInt8, BitVec.getLsbD_or, BitVec.shiftLeft_eq',
    BitVec.ushiftRight_eq', h8, BitVec.getLsbD_shiftLeft, BitVec.getLsbD_setWidth,
    BitVec.getLsbD_ushiftRight]
  grind

theorem getShort_short (n : UInt16) (b : List UInt8) : getShort (short n ++ b) 0 = n := short_spec n

theorem getLong_long (n : UInt32) (b : List UInt8) : getLong (long n ++ b) 0 = n := by
  have h24 : (UInt32.toBitVec 24 % 32).toNat = 24 := rfl
  have h16 : (UInt32.toBitVec 16 % 32).toNat = 16 := rfl
  have h8 : (UInt32.toBitVec 8 % 32).toNat = 8 := rfl
  simp only [getLong, long, List.cons_append, List.nil_append, List.getD_cons_zero,
    List.getD_cons_succ]
  refine UInt32.eq_of_toBitVec_eq (BitVec.eq_of_getLsbD_eq fun i hi => ?_)
  simp only [UInt32.toBitVec_or, UInt32.toBitVec_shiftLeft, UInt32.toBitVec_shiftRight,
    UInt8.toBitVec_toUInt32, UInt32.toBitVec_toUInt8, BitVec.getLsbD_or, BitVec.shiftLeft_eq',
    BitVec.ushiftRight_eq', h24, h16, h8, BitVec.getLsbD_shiftLeft, BitVec.getLsbD_setWidth,
    BitVec.getLsbD_ushiftRight]
  grind

theorem short_getShort (x y : UInt8) : short (getShort [x, y] 0) = [x, y] := by
  have h8 : (UInt16.toBitVec 8 % 16).toNat = 8 := rfl
  simp only [getShort, short, List.getD_cons_zero, List.getD_cons_succ, List.cons.injEq, and_true]
  constructor
  all_goals
    refine UInt8.eq_of_toBitVec_eq (BitVec.eq_of_getLsbD_eq fun i hi => ?_)
    simp only [UInt16.toBitVec_or, UInt16.toBitVec_shiftLeft, UInt16.toBitVec_shiftRight,
      UInt8.toBitVec_toUInt16, UInt16.toBitVec_toUInt8, BitVec.getLsbD_or, BitVec.shiftLeft_eq',
      BitVec.ushiftRight_eq', h8, BitVec.getLsbD_shiftLeft, BitVec.getLsbD_setWidth,
      BitVec.getLsbD_ushiftRight]
    grind

theorem long_getLong (w x y z : UInt8) : long (getLong [w, x, y, z] 0) = [w, x, y, z] := by
  have h24 : (UInt32.toBitVec 24 % 32).toNat = 24 := rfl
  have h16 : (UInt32.toBitVec 16 % 32).toNat = 16 := rfl
  have h8 : (UInt32.toBitVec 8 % 32).toNat = 8 := rfl
  simp only [getLong, long, List.getD_cons_zero, List.getD_cons_succ, List.cons.injEq, and_true]
  refine ⟨?_, ?_, ?_, ?_⟩
  all_goals
    refine UInt8.eq_of_toBitVec_eq (BitVec.eq_of_getLsbD_eq fun i hi => ?_)
    simp only [UInt32.toBitVec_or, UInt32.toBitVec_shiftLeft, UInt32.toBitVec_shiftRight,
      UInt8.toBitVec_toUInt32, UInt32.toBitVec_toUInt8, BitVec.getLsbD_or, BitVec.shiftLeft_eq',
      BitVec.ushiftRight_eq', h24, h16, h8, BitVec.getLsbD_shiftLeft, BitVec.getLsbD_setWidth,
      BitVec.getLsbD_ushiftRight]
    grind

/-- To write what is there changes nothing. -/
theorem setShort_getShort (x y : UInt8) (b : List UInt8) :
    setShort (x :: y :: b) 0 (getShort (x :: y :: b) 0) = x :: y :: b :=
  congrArg (· ++ b) (short_getShort x y)

theorem short_inj {m n : UInt16} (h : short m = short n) : m = n := by
  rw [← getShort_short m [], h, getShort_short]

theorem long_inj {m n : UInt32} (h : long m = long n) : m = n := by
  rw [← getLong_long m [], h, getLong_long]

/-! ### Records of one size -/

section Records

variable {α β : Type} {f : α → List β} {n : ℕ}

theorem length_flatMap_of_length (hf : ∀ x, (f x).length = n) (l : List α) :
    (l.flatMap f).length = n * l.length := by
  induction l with
  | nil => rfl
  | cons x l ih =>
    rw [List.flatMap_cons, List.length_append, hf, ih, List.length_cons, Nat.mul_succ, Nat.add_comm]

theorem flatMap_inj (hf : ∀ x, (f x).length = n) (hinj : ∀ x y, f x = f y → x = y) {l l' : List α}
    (hlen : l.length = l'.length) (h : l.flatMap f = l'.flatMap f) : l = l' := by
  induction l generalizing l' with
  | nil => exact (List.length_eq_zero_iff.mp hlen.symm).symm
  | cons x l ih =>
    cases l' with
    | nil => simp at hlen
    | cons y l' =>
      rw [List.flatMap_cons, List.flatMap_cons] at h
      obtain ⟨hx, hl⟩ := List.append_inj h ((hf x).trans (hf y).symm)
      rw [hinj x y hx, ih (Nat.succ.inj hlen) hl]

end Records

/-! ### Buffers put together -/

theorem getShort_append_right (h : a.length = j) :
    getShort (a ++ b) (j + i) = getShort b i := by
  subst h
  simp only [getShort, List.getD_eq_getElem?_getD, Nat.add_assoc, List.getElem?_append_right,
    Nat.le_add_right, Nat.add_sub_cancel_left]

theorem getShort_append_left (h : i + 2 ≤ a.length) :
    getShort (a ++ b) i = getShort a i := by
  unfold getShort
  simp only [List.getD_eq_getElem?_getD]
  rw [List.getElem?_append_left (by omega), List.getElem?_append_left (by omega)]

theorem setShort_append_right (h : a.length = j) :
    setShort (a ++ b) (j + i) n = a ++ setShort b i n := by
  subst h
  simp [setShort, List.set_append_right, Nat.add_assoc]

theorem getShort_setShort (h : i + 2 ≤ data.length) : getShort (setShort data i n) i = n := by
  have hi : (setShort data i n).getD i 0 = (n >>> 8).toUInt8 := by
    simp [setShort, List.getD_eq_getElem?_getD, show i < data.length by omega]
  have hi' : (setShort data i n).getD (i + 1) 0 = n.toUInt8 := by
    simp [setShort, List.getD_eq_getElem?_getD, show i + 1 < data.length by omega]
  rw [getShort, hi, hi', short_spec]

/-- The bytes in front of a number do not change when it is written. -/
theorem take_setShort (h : j ≤ i) : (setShort data i n).take j = data.take j := by
  unfold setShort
  rw [List.take_set_of_le, List.take_set_of_le] <;> omega

theorem take_setLong {n : UInt32} (h : j ≤ i) : (setLong data i n).take j = data.take j := by
  unfold setLong
  rw [List.take_set_of_le, List.take_set_of_le, List.take_set_of_le, List.take_set_of_le] <;> omega

/-- The bytes behind a number do not change either. -/
theorem drop_setShort (h : i + 2 ≤ j) : (setShort data i n).drop j = data.drop j := by
  unfold setShort
  rw [List.drop_set_of_lt (by omega), List.drop_set_of_lt (by omega)]

theorem drop_setLong {n : UInt32} (h : i + 4 ≤ j) : (setLong data i n).drop j = data.drop j := by
  unfold setLong
  rw [List.drop_set_of_lt (by omega), List.drop_set_of_lt (by omega), List.drop_set_of_lt (by omega),
    List.drop_set_of_lt (by omega)]

theorem getD_congr_drop (h : a.drop j = b.drop j) (hi : j ≤ i) : a.getD i 0 = b.getD i 0 := by
  have hget := congrArg (·.getD (i - j) 0) h
  simpa [List.getD_eq_getElem?_getD, Nat.add_sub_cancel' hi] using hget

/-- A number behind what is written. -/
theorem getShort_congr_drop (h : a.drop j = b.drop j) (hi : j ≤ i) :
    getShort a i = getShort b i := by
  rw [getShort, getShort, getD_congr_drop h hi, getD_congr_drop h (Nat.le_succ_of_le hi)]

theorem getD_congr_take (h : a.take j = b.take j) (hi : i < j) : a.getD i 0 = b.getD i 0 := by
  have hget := congrArg (·.getD i 0) h
  simpa [List.getD_eq_getElem?_getD, List.getElem?_take, hi] using hget

/-- A number in front of what is written. -/
theorem getShort_congr_take (h : a.take j = b.take j) (hi : i + 2 ≤ j) :
    getShort a i = getShort b i := by
  have hfirst := getD_congr_take h (show i < j by omega)
  have hsecond := getD_congr_take h (show i + 1 < j by omega)
  rw [getShort, getShort, hfirst, hsecond]

theorem take_ne_of_getShort_ne (hi : i + 2 ≤ j) (hne : getShort a i ≠ getShort b i) :
    a.take j ≠ b := by
  intro heq
  have hread : getShort a i = getShort (a.take j) i :=
    getShort_congr_take (by rw [List.take_take, Nat.min_self]) hi
  exact hne (hread.trans (by rw [heq]))

end KkLicode.Base.Buffer
