import Mathlib.Algebra.Order.Field.Rat
import Mathlib.Data.List.DropRight
import Mathlib.Data.Rat.Floor
import Mathlib.Tactic.FieldSimp
import Mathlib.Tactic.Ring
import KkLicode.Base.RecentRing

/-! `MovingAverageStat`: the average of the last samples, brought up to date with
every sample. While the window fills the average is weighted anew, afterwards the
sample that leaves the window is exchanged for the one that enters it. The average
is kept in exact rationals, and the position is a natural number: the `uint64_t` of
the code is the same up to 2^64 samples. -/

namespace KkLicode.Stats

structure MovingAverageStat where
  sampleVector : List UInt64
  windowSize : UInt32
  nextSamplePosition : ℕ := 0
  currentAverage : ℚ := 0
  deriving DecidableEq, Repr

namespace MovingAverageStat

/-- The constructor. -/
def new (windowSize : UInt32) : MovingAverageStat where
  sampleVector := List.replicate windowSize.toNat 0
  windowSize := windowSize

variable (s : MovingAverageStat)

/-- The position of the next sample in the vector. -/
def cell : ℕ := s.nextSamplePosition % s.windowSize.toNat

/-- The average after a sample, which `add` takes before it writes the sample. -/
def nextAverage (value : UInt64) : ℚ :=
  if s.nextSamplePosition < s.windowSize.toNat then
    (s.currentAverage * s.nextSamplePosition + value.toNat) / (s.nextSamplePosition + 1)
  else
    let oldValue := s.sampleVector.getD s.cell 0
    if value > oldValue then
      s.currentAverage + ((value - oldValue).toNat : ℚ) / s.windowSize.toNat
    else s.currentAverage - ((oldValue - value).toNat : ℚ) / s.windowSize.toNat

def add (value : UInt64) : MovingAverageStat :=
  { s with
    currentAverage := s.nextAverage value
    sampleVector := s.sampleVector.set s.cell value
    nextSamplePosition := s.nextSamplePosition + 1 }

/-- `value`, with `std::round` of a number that is not negative. -/
def value : ℕ := ⌊s.currentAverage + 1 / 2⌋.toNat

/-! ### The mean of a list -/

def sum (samples : List UInt64) : ℚ := (samples.map fun v => (v.toNat : ℚ)).sum

def mean (samples : List UInt64) : ℚ := sum samples / samples.length

theorem sum_append (l m : List UInt64) : sum (l ++ m) = sum l + sum m := by
  rw [sum, List.map_append, List.sum_append]
  rfl

theorem sum_singleton (v : UInt64) : sum [v] = v.toNat := by simp [sum]

theorem sum_cons (v : UInt64) (l : List UInt64) : sum (v :: l) = v.toNat + sum l := by simp [sum]

/-- One sample more. -/
theorem mean_concat (l : List UInt64) (v : UInt64) :
    mean (l ++ [v]) = (mean l * l.length + v.toNat) / (l.length + 1) := by
  have hsum : mean l * l.length = sum l := by
    cases l with
    | nil => simp [sum]
    | cons x l => exact div_mul_cancel₀ _ (Nat.cast_ne_zero.mpr (Nat.succ_ne_zero _))
  rw [mean, sum_append, sum_singleton, hsum, List.length_append, List.length_singleton, Nat.cast_add,
    Nat.cast_one]

/-- The first sample leaves and one more enters. -/
theorem mean_slide (old v : UInt64) (l : List UInt64) :
    mean (l ++ [v]) = mean (old :: l) + ((v.toNat : ℚ) - old.toNat) / (l.length + 1 : ℕ) := by
  rw [mean, mean, sum_append, sum_singleton, sum_cons, List.length_append, List.length_singleton,
    List.length_cons, ← add_div]
  congr 1
  ring

/-- The difference of two unsigned numbers, taken from the larger one. -/
theorem toNat_sub_cast {a b : UInt64} (h : b ≤ a) : ((a - b).toNat : ℚ) = (a.toNat : ℚ) - b.toNat := by
  rw [UInt64.toNat_sub_of_le _ _ h, Nat.cast_sub (UInt64.le_iff_toNat_le.mp h)]

/-! ### The samples so far -/

/-- The statistic after the samples. -/
def afterAdds (windowSize : UInt32) (samples : List UInt64) : MovingAverageStat :=
  samples.foldl add (new windowSize)

/-- The vector has the last samples, each in the cell of its position, and the average is
theirs. -/
structure Follows (windowSize : UInt32) (samples : List UInt64) (s : MovingAverageStat) : Prop where
  window : s.windowSize = windowSize
  next : s.nextSamplePosition = samples.length
  length : s.sampleVector.length = windowSize.toNat
  sample : ∀ j < samples.length, samples.length ≤ j + windowSize.toNat →
    s.sampleVector[j % windowSize.toNat]? = samples[j]?
  average : s.currentAverage = mean (samples.rtake windowSize.toNat)

variable {windowSize : UInt32} {samples : List UInt64} {s}

theorem follows_new (windowSize : UInt32) : Follows windowSize [] (new windowSize) where
  window := rfl
  next := rfl
  length := List.length_replicate
  sample j hj := absurd hj (Nat.not_lt_zero j)
  average := by simp [new, mean, sum]

/-- While the window fills all samples count. -/
theorem Follows.nextAverage_growing (h : Follows windowSize samples s)
    (hlt : samples.length < windowSize.toNat) (v : UInt64) :
    s.nextAverage v = mean ((samples ++ [v]).rtake windowSize.toNat) := by
  have hall : samples.rtake windowSize.toNat = samples := by
    rw [List.rtake, Nat.sub_eq_zero_of_le hlt.le, List.drop_zero]
  have hall' : (samples ++ [v]).rtake windowSize.toNat = samples ++ [v] := by
    rw [List.rtake, List.length_append, List.length_singleton, Nat.sub_eq_zero_of_le hlt,
      List.drop_zero]
  rw [nextAverage, h.window, h.next, if_pos hlt, h.average, hall, hall', mean_concat]

/-- A full window loses its first sample. -/
theorem rtake_concat {n : ℕ} (hn : 0 < n) {l : List UInt64} (hle : n ≤ l.length) (v : UInt64) :
    ∃ old rest, l[l.length - n]? = some old ∧ l.rtake n = old :: rest ∧
      (l ++ [v]).rtake n = rest ++ [v] ∧ rest.length + 1 = n := by
  have hlt : l.length - n < l.length := by omega
  have hlen : (l ++ [v]).length - n = l.length - n + 1 := by
    rw [List.length_append, List.length_singleton]
    omega
  refine ⟨l[l.length - n], l.drop (l.length - n + 1), List.getElem?_eq_getElem hlt,
    List.drop_eq_getElem_cons hlt, ?_, ?_⟩
  · rw [List.rtake, hlen, List.drop_append_of_le_length hlt]
  · rw [List.length_drop]
    omega

/-- In a full window the sample read before it is overwritten is the oldest one. -/
theorem Follows.nextAverage_sliding (h : Follows windowSize samples s) (hn : 0 < windowSize.toNat)
    (hle : windowSize.toNat ≤ samples.length) (v : UInt64) :
    s.nextAverage v = mean ((samples ++ [v]).rtake windowSize.toNat) := by
  obtain ⟨old, rest, hold, hwindow, hwindow', hlen⟩ := rtake_concat hn hle v
  have hcell : s.sampleVector.getD s.cell 0 = old := by
    have hsample := h.sample (samples.length - windowSize.toNat) (by omega) (by omega)
    rw [← Nat.mod_eq_sub_mod hle, hold] at hsample
    rw [cell, h.window, h.next, List.getD_eq_getElem?_getD, hsample, Option.getD_some]
  rw [nextAverage, h.window, h.next, if_neg (Nat.not_lt.mpr hle)]
  simp only [hcell]
  rw [h.average, hwindow, hwindow', mean_slide old, hlen]
  split_ifs with hgt
  · rw [toNat_sub_cast (UInt64.le_of_lt hgt)]
  · rw [toNat_sub_cast (UInt64.not_lt.mp hgt), sub_div, sub_div]
    ring

theorem Follows.add (h : Follows windowSize samples s) (hn : 0 < windowSize.toNat) (v : UInt64) :
    Follows windowSize (samples ++ [v]) (s.add v) where
  window := h.window
  next := by
    show s.nextSamplePosition + 1 = _
    rw [h.next, List.length_append, List.length_singleton]
  length := (List.length_set ..).trans h.length
  sample j hj hjn := by
    show (s.sampleVector.set s.cell v)[j % windowSize.toNat]? = _
    rw [List.length_append, List.length_singleton] at hj hjn
    rw [cell, h.window, h.next]
    rcases Nat.eq_or_lt_of_le (Nat.le_of_lt_succ hj) with rfl | hlt
    · rw [List.getElem?_set_self (by rw [h.length]; exact Nat.mod_lt _ hn),
        List.getElem?_concat_length]
    · rw [List.getElem?_set_ne (Base.RecentRing.mod_ne_mod hlt (by omega)).symm,
        h.sample j hlt (by omega), List.getElem?_append_left hlt]
  average := by
    show s.nextAverage v = _
    rcases Nat.lt_or_ge samples.length windowSize.toNat with hlt | hle
    · exact h.nextAverage_growing hlt v
    · exact h.nextAverage_sliding hn hle v

theorem follows_afterAdds (hn : 0 < windowSize.toNat) (samples : List UInt64) :
    Follows windowSize samples (afterAdds windowSize samples) := by
  induction samples using List.reverseRecOn with
  | nil => exact follows_new windowSize
  | append_singleton samples v ih =>
    rw [afterAdds, List.foldl_append]
    exact ih.add hn v

/-- The average is the mean of the last samples, as many as there are in the window. -/
theorem currentAverage_eq_mean (windowSize : UInt32) (hn : 1 ≤ windowSize.toNat)
    (samples : List UInt64) :
    (afterAdds windowSize samples).currentAverage =
      sum (samples.rtake windowSize.toNat) / (min samples.length windowSize.toNat : ℕ) := by
  have hlen : (samples.rtake windowSize.toNat).length = min samples.length windowSize.toNat := by
    rw [List.rtake, List.length_drop]
    omega
  rw [(follows_afterAdds hn samples).average, mean, hlen]

/-- Four samples in a window of three; the second is below the one it follows. -/
theorem currentAverage_eq_mean_window :
    (afterAdds 3 [5, 4, 9, 2]).currentAverage = (15 : ℚ) / 3 :=
  (currentAverage_eq_mean 3 (by decide) [5, 4, 9, 2]).trans (by decide +kernel)

end MovingAverageStat

end KkLicode.Stats
