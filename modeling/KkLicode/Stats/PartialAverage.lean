import Mathlib.Algebra.Order.Floor.Semifield
import Mathlib.Data.List.GetD
import KkLicode.Base.Double
import KkLicode.Stats.MovingAverageStat

/-! The average of fewer samples than the window holds. The number of samples is
bounded by the position of the last one, which is one less than there are: unless
more than the wanted samples were added, the first one is left out, and a single
sample has no average. -/

namespace KkLicode.Stats.MovingAverageStat

open Base Double

variable (s : MovingAverageStat) (sampleNumber : UInt32)

/-- An unsigned number: in front of the first sample it is the largest one. -/
def currentSamplePosition : ℕ :=
  if s.nextSamplePosition = 0 then 2 ^ 64 - 1 else s.nextSamplePosition - 1

/-- The number of samples that are used. -/
def usedSamples : ℕ :=
  min (min sampleNumber.toNat s.windowSize.toNat) s.currentSamplePosition

def calculatedSum : UInt64 :=
  (List.range (s.usedSamples sampleNumber)).foldl
    (fun sum i => sum + s.sampleVector.getD ((s.currentSamplePosition - i) % s.windowSize.toNat) 0) 0

/-- The truncation of the average; nothing where it divides by zero or does not fit. -/
def valueOf : Option ℕ :=
  if s.usedSamples sampleNumber = 0 then none
  else
    let average := quotient (s.calculatedSum sampleNumber).toNat (s.usedSamples sampleNumber)
    if average < 2 ^ 64 then some average else none

/-! ### What is added up -/

/-- The sum of the samples, which does not wrap. -/
def total (samples : List UInt64) : ℕ := (samples.map UInt64.toNat).sum

theorem sum_eq_total (l : List UInt64) : sum l = total l := by
  induction l with
  | nil => rfl
  | cons v l ih =>
    rw [sum_cons, ih, total, total, List.map_cons, List.sum_cons]
    push_cast
    rfl

theorem floor_mean (l : List UInt64) : ⌊mean l⌋₊ = total l / l.length := by
  rw [mean, sum_eq_total, Nat.floor_div_eq_div]

/-- The sum of the loop, which wraps. -/
theorem toNat_foldl_add (f : ℕ → UInt64) (l : List ℕ) (start : UInt64) :
    (l.foldl (fun sum i => sum + f i) start).toNat =
      (start.toNat + total (l.map f)) % 2 ^ 64 := by
  induction l generalizing start with
  | nil => simp [total, Nat.mod_eq_of_lt start.toNat_lt]
  | cons i l ih =>
    rw [List.foldl_cons, ih, UInt64.toNat_add, List.map_cons, total, total, List.map_cons,
      List.sum_cons]
    omega

/-- Read backwards from the last sample. -/
theorem map_range_rtake (l : List UInt64) {n : ℕ} (hn : n ≤ l.length) :
    ((List.range n).map fun i => l.getD (l.length - 1 - i) 0) = (l.rtake n).reverse := by
  refine List.ext_getElem (by simp [List.rtake]; omega) fun i hi hi' => ?_
  rw [List.length_map, List.length_range] at hi
  rw [List.getElem_map, List.getElem_range, List.getElem_reverse,
    List.getD_eq_getElem _ _ (by omega)]
  simp only [List.rtake, List.getElem_drop, List.length_drop]
  congr 1
  omega

variable {s sampleNumber}
variable {windowSize : UInt32} {samples : List UInt64}

theorem Follows.currentSamplePosition_eq (h : Follows windowSize samples s) (hne : samples ≠ []) :
    s.currentSamplePosition = samples.length - 1 := by
  rw [currentSamplePosition, h.next, if_neg (mt List.eq_nil_of_length_eq_zero hne)]

theorem Follows.usedSamples_eq (h : Follows windowSize samples s) (hne : samples ≠ []) :
    s.usedSamples sampleNumber =
      min (min sampleNumber.toNat windowSize.toNat) (samples.length - 1) := by
  rw [usedSamples, h.window, h.currentSamplePosition_eq hne]

/-- The ring still has every sample that is used. -/
theorem Follows.calculatedSum_eq (h : Follows windowSize samples s) (hne : samples ≠ []) :
    (s.calculatedSum sampleNumber).toNat =
      total (samples.rtake (s.usedSamples sampleNumber)) % 2 ^ 64 := by
  have hlen := List.length_pos_of_ne_nil hne
  have hused : s.usedSamples sampleNumber =
      min (min sampleNumber.toNat windowSize.toNat) (samples.length - 1) := h.usedSamples_eq hne
  have hread : ∀ i ∈ List.range (s.usedSamples sampleNumber),
      s.sampleVector.getD ((s.currentSamplePosition - i) % s.windowSize.toNat) 0 =
        samples.getD (samples.length - 1 - i) 0 := by
    intro i hi
    rw [List.mem_range] at hi
    rw [h.window, h.currentSamplePosition_eq hne, List.getD_eq_getElem?_getD,
      h.sample _ (by omega) (by omega), ← List.getD_eq_getElem?_getD]
  rw [calculatedSum, toNat_foldl_add, List.map_congr_left hread, map_range_rtake _ (by omega)]
  simp [total]

/-- The loop adds up the last samples and divides in doubles. -/
theorem Follows.valueOf_eq (h : Follows windowSize samples s) (hne : samples ≠ []) {used : ℕ}
    (hused : min (min sampleNumber.toNat windowSize.toNat) (samples.length - 1) = used) {n : ℕ} :
    s.valueOf sampleNumber = some n ↔
      0 < used ∧ n < 2 ^ 64 ∧ quotient (total (samples.rtake used) % 2 ^ 64) used = n := by
  have hcount := (h.usedSamples_eq hne).trans hused
  rw [valueOf, h.calculatedSum_eq hne, hcount]
  rcases Nat.eq_zero_or_pos used with rfl | hpos
  · simp
  rw [if_neg hpos.ne']
  simp only [Option.ite_none_right_eq_some, Option.some.injEq]
  constructor
  · rintro ⟨hlt, rfl⟩
    exact ⟨hpos, hlt, rfl⟩
  · rintro ⟨-, hlt, rfl⟩
    exact ⟨hlt, rfl⟩

/-! ### When the average is the mean -/

/-- The quotient has the integer part `mean`. Doubles divide a sum of at most 53 bits as
integers do; a larger one is rounded. -/
def Rounds (sum count mean : ℕ) : Prop :=
  if sum < 2 ^ 53 then sum / count = mean else sum < 2 ^ 64 ∧ quotient sum count = mean

/-- There are more samples than are wanted, or the mean is no other without the first one. -/
def Averages (wanted : ℕ) (samples : List UInt64) : Prop :=
  if wanted < samples.length then
    Rounds (total (samples.rtake wanted)) wanted (total (samples.rtake wanted) / wanted)
  else
    2 ≤ samples.length ∧
      Rounds (total samples.tail) (samples.length - 1) (total samples / samples.length)

instance (sum count mean : ℕ) : Decidable (Rounds sum count mean) :=
  inferInstanceAs (Decidable (if sum < 2 ^ 53 then _ else _ ∧ _))

instance (wanted : ℕ) (samples : List UInt64) : Decidable (Averages wanted samples) :=
  inferInstanceAs (Decidable (if wanted < samples.length then Rounds _ _ _ else _ ∧ Rounds _ _ _))

theorem rounds_iff {sum count mean : ℕ} (hpos : 0 < count) (hcount : count < 2 ^ 32) :
    Rounds sum count mean ↔ sum < 2 ^ 64 ∧ quotient sum count = mean := by
  rw [Rounds]
  split_ifs with hlt
  · rw [quotient_eq_div hlt hpos (by omega)]
    exact ⟨fun h => ⟨by omega, h⟩, And.right⟩
  · rfl

/-- A sum that wraps has a quotient far below the mean. -/
theorem lt_of_quotient {sum b c : ℕ} (hpos : 0 < b) (hb : b < 2 ^ 32)
    (hc : c = b ∨ (c = b + 1 ∧ 2 ≤ b)) (h : sum < (quotient (sum % 2 ^ 64) b + 1) * c) :
    sum < 2 ^ 64 := by
  by_contra hge
  have hbound : quotient (sum % 2 ^ 64) b * b < sum % 2 ^ 64 + 2 ^ 13 := by
    have hle := quotient_le (a := sum % 2 ^ 64) hpos (by omega)
    have hmod : ((sum % 2 ^ 64 : ℕ) : ℚ) < 2 ^ 64 := by
      exact_mod_cast Nat.mod_lt _ (by positivity)
    generalize sum % 2 ^ 64 = x at hle hmod ⊢
    have : (quotient x b * b : ℚ) < x + 2 ^ 13 := by
      calc (quotient x b * b : ℚ) ≤ x + x / 2 ^ 51 := by rwa [mul_add, mul_one, mul_one_div] at hle
        _ < x + 2 ^ 13 := by
            rw [add_lt_add_iff_left, div_lt_iff₀ (by positivity)]
            linarith
    exact_mod_cast this
  have hwrap : sum % 2 ^ 64 + 2 ^ 64 ≤ sum := by omega
  rcases hc with rfl | ⟨rfl, htwo⟩
  · rw [Nat.add_one_mul] at h
    omega
  · have hhalf : quotient (sum % 2 ^ 64) b * 2 ≤ quotient (sum % 2 ^ 64) b * b :=
      Nat.mul_le_mul_left _ htwo
    rw [Nat.add_one_mul, Nat.mul_add_one] at h
    omega

/-- More samples than are wanted: the last ones are averaged. -/
theorem Follows.valueOf_wanted (h : Follows windowSize samples s) {wanted : ℕ}
    (hm : min sampleNumber.toNat windowSize.toNat = wanted) (hpos : 0 < wanted)
    (hlt : wanted < samples.length) :
    s.valueOf sampleNumber = some ⌊mean (samples.rtake wanted)⌋₊ ↔
      Rounds (total (samples.rtake wanted)) wanted (total (samples.rtake wanted) / wanted) := by
  have hne : samples ≠ [] := List.ne_nil_of_length_pos (by omega)
  have hlarge : wanted < 2 ^ 32 := by
    have := sampleNumber.toNat_lt
    omega
  have hcount : (samples.rtake wanted).length = wanted := by
    rw [List.rtake, List.length_drop]
    omega
  have hused : min (min sampleNumber.toNat windowSize.toNat) (samples.length - 1) = wanted := by omega
  rw [h.valueOf_eq hne hused, floor_mean, hcount, rounds_iff hpos hlarge]
  generalize total (samples.rtake wanted) = sum
  constructor
  · rintro ⟨-, -, hquot⟩
    have hsum : sum < 2 ^ 64 := by
      refine lt_of_quotient hpos hlarge (.inl rfl) ?_
      rw [hquot]
      exact Nat.lt_mul_of_div_lt (Nat.lt_succ_self _) hpos
    rw [Nat.mod_eq_of_lt hsum] at hquot
    exact ⟨hsum, hquot⟩
  · rintro ⟨hsum, hquot⟩
    rw [Nat.mod_eq_of_lt hsum]
    exact ⟨hpos, (Nat.div_le_self _ _).trans_lt hsum, hquot⟩

/-- Otherwise all but the first are averaged. -/
theorem Follows.valueOf_rest {first : UInt64} {rest : List UInt64}
    (h : Follows windowSize (first :: rest) s) {wanted : ℕ}
    (hm : min sampleNumber.toNat windowSize.toNat = wanted) (hge : rest.length + 1 ≤ wanted) :
    s.valueOf sampleNumber = some ⌊mean (first :: rest)⌋₊ ↔
      1 ≤ rest.length ∧
        Rounds (total rest) rest.length (total (first :: rest) / (rest.length + 1)) := by
  have hlarge : rest.length < 2 ^ 32 := by
    have := sampleNumber.toNat_lt
    omega
  have hused : min (min sampleNumber.toNat windowSize.toNat) ((first :: rest).length - 1) =
      rest.length := by
    rw [List.length_cons]
    omega
  have htail : (first :: rest).rtake rest.length = rest := by
    rw [List.rtake, List.length_cons, Nat.add_sub_cancel_left, List.drop_one, List.tail_cons]
  have htotal : total (first :: rest) = first.toNat + total rest := by simp [total]
  rw [h.valueOf_eq (List.cons_ne_nil _ _) hused, floor_mean, htail, List.length_cons]
  refine and_congr_right fun hrest => ?_
  rw [rounds_iff hrest hlarge]
  constructor
  · rintro ⟨-, hquot⟩
    have hsum : total rest < 2 ^ 64 := by
      rcases Nat.lt_or_ge rest.length 2 with hone | htwo
      · -- a single sample
        obtain ⟨v, rfl⟩ := List.length_eq_one_iff.mp (by omega : rest.length = 1)
        simpa [total] using v.toNat_lt
      · refine lt_of_quotient hrest hlarge (.inr ⟨rfl, htwo⟩) ?_
        rw [hquot]
        calc total rest ≤ total (first :: rest) := by omega
          _ < _ := Nat.lt_mul_of_div_lt (Nat.lt_succ_self _) (Nat.succ_pos _)
    rw [Nat.mod_eq_of_lt hsum] at hquot
    exact ⟨hsum, hquot⟩
  · rintro ⟨hsum, hquot⟩
    rw [Nat.mod_eq_of_lt hsum]
    refine ⟨?_, hquot⟩
    rw [htotal, Nat.div_lt_iff_lt_mul (Nat.succ_pos _)]
    have := first.toNat_lt
    omega

/-- The division is defined and gives the floor of the mean of the last samples if and only if
there are more samples than are wanted, or at least two whose mean is the same without the
first one. -/
theorem valueOf_eq_floor_mean_iff (windowSize : UInt32) (hw : 1 ≤ windowSize.toNat)
    (samples : List UInt64) (hne : samples ≠ []) (sampleNumber : UInt32)
    (hk : 1 ≤ sampleNumber.toNat) :
    (afterAdds windowSize samples).valueOf sampleNumber =
        some ⌊mean (samples.rtake (min sampleNumber.toNat windowSize.toNat))⌋₊ ↔
      Averages (min sampleNumber.toNat windowSize.toNat) samples := by
  have hfollows := follows_afterAdds hw samples
  have hpos : 0 < min sampleNumber.toNat windowSize.toNat := Nat.lt_min.mpr ⟨hk, hw⟩
  rw [Averages]
  split_ifs with hlt
  · exact hfollows.valueOf_wanted rfl hpos hlt
  · obtain ⟨first, rest, rfl⟩ := List.exists_cons_of_ne_nil hne
    rw [List.length_cons] at hlt
    have hall : (first :: rest).rtake (min sampleNumber.toNat windowSize.toNat) =
        first :: rest := by
      rw [List.rtake, List.length_cons, Nat.sub_eq_zero_of_le (by omega), List.drop_zero]
    rw [hall, hfollows.valueOf_rest rfl (by omega), List.length_cons, List.tail_cons,
      Nat.add_sub_cancel]
    exact and_congr_left' (by omega)

/-- The last two of three samples. -/
theorem valueOf_eq_floor_mean_two :
    (afterAdds 5 [9, 3, 4]).valueOf 2 = some ⌊mean ([9, 3, 4].rtake 2)⌋₊ :=
  (valueOf_eq_floor_mean_iff 5 (by decide) [9, 3, 4] (by decide) 2 (by decide)).mpr
    (by decide)

/-- The only sample so far has no average. -/
theorem not_valueOf_eq_floor_mean : ¬∀ windowSize : UInt32, 1 ≤ windowSize.toNat →
    ∀ samples : List UInt64, samples ≠ [] → ∀ sampleNumber : UInt32, 1 ≤ sampleNumber.toNat →
      (afterAdds windowSize samples).valueOf sampleNumber =
        some ⌊mean (samples.rtake (min sampleNumber.toNat windowSize.toNat))⌋₊ := by
  intro h
  have hnone : (afterAdds 5 [7]).valueOf 1 = none := by decide
  rw [h 5 (by decide) [7] (by decide) 1 (by decide)] at hnone
  cases hnone

end KkLicode.Stats.MovingAverageStat
