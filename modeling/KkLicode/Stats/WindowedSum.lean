import Mathlib.Algebra.BigOperators.Intervals
import KkLicode.Stats.RateQuery

/-! Which adds the sum of a query is made of. The loop starts behind the intervals
in front of the period and ends in front of the current one; buckets of the window
in which nothing was counted yet are passed on the way and hold zeros. -/

namespace KkLicode.Stats.MovingIntervalRateStat

open Base Double RecentRing

variable {s : MovingIntervalRateStat} {k : ℕ} {value : ℕ → UInt64}

/-! ### The window -/

/-- The window starts with the first of the last intervals up to `k`. While it fills, the buckets
behind `k` hold zeros. -/
structure Spans (s : MovingIntervalRateStat) (k : ℕ) : Prop where
  start : s.currentWindowStartMs.toNat =
    s.calculationStartMs.toNat + (k + 1 - s.intervalsInWindow.toNat) * s.intervalSizeMs.toNat
  unused : ∀ i, k < i → i < s.intervalsInWindow.toNat → s.sampleVector[i]? = some 0

/-- A bucket further on is another one. -/
theorem unused_set (h : ∀ i, k < i → i < s.intervalsInWindow.toNat → s.sampleVector[i]? = some 0)
    {j : ℕ} (hj : k ≤ j) {cell : UInt64} (hcell : cell.toNat = j % s.intervalsInWindow.toNat)
    (v : UInt64) {i : ℕ} (hji : j < i) (hi : i < s.intervalsInWindow.toNat) :
    (s.setSample cell v).sampleVector[i]? = some 0 := by
  show (s.sampleVector.set cell.toNat v)[i]? = some 0
  rw [hcell, Nat.mod_eq_of_lt (hji.trans hi), List.getElem?_set_ne hji.ne]
  exact h i (hj.trans_lt hji) hi

theorem Spans.passIntervals (h : s.Spans k) (hc : s.Counts k value) (n : ℕ)
    (hv : ∀ j, k < j → j ≤ k + n → value j = 0) {i : ℕ} (hk : k + n < i)
    (hi : i < s.intervalsInWindow.toNat) :
    (MovingIntervalRateStat.passInterval^[n] s).sampleVector[i]? = some 0 := by
  induction n generalizing i with
  | zero => exact h.unused i hk hi
  | succ n ih =>
    have hless : ∀ j, k < j → j ≤ k + n → value j = 0 := fun j hj hjn => hv j hj (by omega)
    obtain ⟨-, hw, -⟩ := passIntervals_frame s n
    rw [Function.iterate_succ_apply']
    refine @unused_set (MovingIntervalRateStat.passInterval^[n] s) (k + n) (fun i hki hi => ?_) _
      (Nat.le_succ _) _ (getNextInterval_toNat (hc.passIntervals n hless)) 0 i hk (by rwa [hw])
    exact ih hless hki (by rwa [hw] at hi)

theorem Spans.add (h : s.Spans k) (hc : s.Counts k value) (hend : s.EndsWith k)
    (hsize : 0 < s.intervalSizeMs.toNat) {t : UInt64} (hle : s.calculationStartMs ≤ t)
    (hk : k ≤ s.interval t) (hsoon : s.Soon k t) (hv : ∀ j, k < j → value j = 0)
    (hfits : t.toNat + s.intervalSizeMs.toNat < 2 ^ 64) (v : UInt64) :
    (s.add t v).Spans (s.interval t) := by
  have hn : 0 < s.intervalsInWindow.toNat := by have := hc.two_le; omega
  rcases hc.add_cases hend hsize hle hk hsoon v with ⟨heq, hadd⟩ | ⟨m, hm, hadd⟩
  · have hcorr : (s.getIntervalForTimeMs t).toUInt64 = s.currentInterval := by
      apply UInt64.toNat_inj.mp
      rw [s.getIntervalForTimeMs_toNat hn hle, heq, hc.current]
    rw [hadd, heq, addSample, hcorr, if_neg (not_not.mpr rfl)]
    exact ⟨h.start, fun i hki hi => unused_set h.unused le_rfl hc.current _ hki hi⟩
  · have hpassed := hc.passIntervals m fun j hj _ => hv j hj
    have hunused := fun i => @Spans.passIntervals s k value h hc m (fun j hj _ => hv j hj) i
    obtain ⟨hsz, hw, hst⟩ := passIntervals_frame s m
    have hint : (MovingIntervalRateStat.passInterval^[m] s).interval t = k + m + 1 := by
      rw [interval, hsz, hst]
      exact hm
    have hbound : s.calculationStartMs.toNat + (k + m + 2) * s.intervalSizeMs.toNat ≤
        t.toNat + s.intervalSizeMs.toNat := by
      have hmul := Nat.div_mul_le_self (t.toNat - s.calculationStartMs.toNat) s.intervalSizeMs.toNat
      rw [show (t.toNat - s.calculationStartMs.toNat) / s.intervalSizeMs.toNat = k + m + 1 from hm] at hmul
      have := UInt64.le_iff_toNat_le.mp hle
      rw [Nat.succ_mul]
      omega
    rw [hadd, hm]
    generalize MovingIntervalRateStat.passInterval^[m] s = p at *
    have hcorr := p.getIntervalForTimeMs_toNat (by rwa [hw]) (by rwa [hst])
    rw [hint] at hcorr
    have hne : (p.getIntervalForTimeMs t).toUInt64 ≠ p.currentInterval := by
      intro heq
      rw [heq, hpassed.current] at hcorr
      exact mod_ne_mod (Nat.lt_succ_self (k + m)) (by have := hpassed.two_le; omega) hcorr
    have hless : k + m + 2 ≤ (k + m + 2) * s.intervalSizeMs.toNat := Nat.le_mul_of_pos_right _ hsize
    have hacc : (p.accumulatedIntervals + 1).toNat = k + m + 2 := by
      rw [hpassed.accumulated, UInt64.toNat_add, UInt64.toNat_ofNat', UInt64.toNat_one]
      omega
    rw [addSample, if_pos hne]
    constructor
    · have hstart := @updateWindowTimes_start
        { p.setSample (p.getIntervalForTimeMs t).toUInt64 0 with
          accumulatedIntervals := p.accumulatedIntervals + 1 }
        (by
          show p.calculationStartMs.toNat + (p.accumulatedIntervals + 1).toNat *
            p.intervalSizeMs.toNat < 2 ^ 64
          rw [hacc, hst, hsz]
          omega)
      refine hstart.trans ?_
      show p.calculationStartMs.toNat + ((p.accumulatedIntervals + 1).toNat -
        p.intervalsInWindow.toNat) * p.intervalSizeMs.toNat = _
      rw [hacc]
      rfl
    · intro i hki hi
      -- the bucket is cleared, and then the value goes into it
      refine @unused_set (p.startInterval (p.getIntervalForTimeMs t).toUInt64) (k + m + 1)
        (fun i hki hi => ?_) _ le_rfl _ hcorr _ i hki hi
      exact unused_set (fun i hki hi => hunused i hki (by rwa [hw] at hi)) (Nat.le_succ _) hcorr 0 hki hi

theorem spans_firstAdd (intervalSizeMs : UInt64) {intervals : UInt32} (hn : 2 ≤ intervals.toNat)
    (t : UInt64) : ((new intervalSizeMs intervals).firstAdd t).Spans 0 := by
  constructor
  · show t.toNat = t.toNat + (0 + 1 - intervals.toNat) * intervalSizeMs.toNat
    rw [Nat.sub_eq_zero_of_le (by omega), Nat.zero_mul, Nat.add_zero]
  · intro i _ (hi : i < intervals.toNat)
    show (List.replicate intervals.toNat (0 : UInt64))[i]? = some 0
    rw [List.getElem?_replicate, if_pos hi]

/-- Adds that come soon enough one after the other, while the clock is not near its end. -/
theorem spans_afterAdds {intervalSizeMs : UInt64} {intervals : UInt32} (hn : 2 ≤ intervals.toNat)
    (hsize : 0 < intervalSizeMs.toNat) (first : UInt64 × UInt64) (l : List (UInt64 × UInt64))
    (hord : Ordered (first :: l)) (hfits : Fits intervalSizeMs.toNat (first :: l) intervals.toNat)
    (hclock : ∀ a ∈ first :: l, a.1.toNat + intervalSizeMs.toNat < 2 ^ 64) :
    ∀ last ∈ (first :: l).getLast?, (afterAdds intervalSizeMs intervals (first :: l)).Spans
      ((afterAdds intervalSizeMs intervals (first :: l)).interval last.1) := by
  induction l using List.reverseRecOn with
  | nil =>
    rintro last ⟨⟩
    obtain ⟨hcounts, hends⟩ := firstAdd_counts intervalSizeMs hn first.1
    obtain ⟨hzero, hsoon⟩ := soon_firstAdd hfits.1 intervals first.1
    have hspans := (spans_firstAdd intervalSizeMs hn first.1).add hcounts hends hsize
      (UInt64.le_refl first.1) (Nat.zero_le _) hsoon (fun _ _ => rfl)
      (hclock first (List.mem_singleton_self first)) first.2
    rw [← add_interval, add_firstAdd] at hspans
    exact hspans
  | append_singleton l a ih =>
    rw [← List.cons_append] at hord hfits hclock ⊢
    obtain ⟨hl : Ordered _, -, ha⟩ := List.pairwise_append.mp hord
    obtain ⟨hchain, -, hsoon⟩ := List.isChain_append.mp hfits.2
    obtain ⟨last, hmem⟩ : ∃ last, last ∈ (first :: l).getLast? :=
      ⟨_, List.getLast?_eq_some_getLast (List.cons_ne_nil first l)⟩
    have hspans := ih hl ⟨hfits.1, hchain⟩ (fun x hx => hclock x (List.mem_append_left _ hx)) last hmem
    have htracks := tracks_afterAdds hn hsize first l hl ⟨hfits.1, hchain⟩ last hmem
    obtain ⟨hstart, hk, hsoon'⟩ := htracks.soon (hl.le_last hmem)
      (ha _ (List.mem_of_getLast? hmem) a (List.mem_singleton_self a)) (hsoon _ hmem _ rfl)
    have hzero : ∀ j, (afterAdds intervalSizeMs intervals (first :: l)).interval last.1 < j →
        sumOf intervalSizeMs.toNat (first :: l) j = 0 := by
      intro j hj
      rw [htracks.interval_eq] at hj
      exact sumOf_eq_zero (hl.le_last hmem) hj
    have hnext := hspans.add htracks.counts htracks.ends (by rwa [htracks.size]) hstart hk hsoon' hzero
      (by rw [htracks.size]; exact hclock a (List.mem_append_right _ (List.mem_singleton_self a))) a.2
    intro last' hlast'
    rw [List.getLast?_concat] at hlast'
    cases hlast'
    have hsame : (afterAdds intervalSizeMs intervals (first :: l)).firstAdd a.1 =
        afterAdds intervalSizeMs intervals (first :: l) := if_pos htracks.counts.initialized
    have hint := add_interval (afterAdds intervalSizeMs intervals (first :: l)) a.1 a.2 a.1
    rw [hsame] at hint
    rw [← hint] at hnext
    rw [afterAdds, List.foldl_append]
    exact hnext

/-! ### The loop -/

theorem getNextInterval_toUInt64_toNat (s : MovingIntervalRateStat) {c : UInt32} {j : ℕ}
    (hn : 0 < s.intervalsInWindow.toNat) (hc : c.toNat = j % s.intervalsInWindow.toNat) :
    (s.getNextInterval c).toNat = (j + 1) % s.intervalsInWindow.toNat := by
  have hlt := s.intervalsInWindow.toNat_lt
  have hmod : j % s.intervalsInWindow.toNat < s.intervalsInWindow.toNat := Nat.mod_lt _ hn
  rw [getNextInterval, UInt32.toNat_mod, UInt32.toNat_add, hc, UInt32.toNat_one,
    Nat.mod_eq_of_lt (by omega : j % s.intervalsInWindow.toNat + 1 < 2 ^ 32), Nat.mod_add_mod]

/-- What a bucket between the current one and the next lap holds: of the interval a lap before. -/
theorem Spans.sample_eq (h : s.Spans k) (hc : s.Counts k value) {j : ℕ} (hkj : k < j)
    (hjk : j < k + s.intervalsInWindow.toNat) {c : UInt32}
    (hcell : c.toNat = j % s.intervalsInWindow.toNat) :
    s.sample c.toUInt64 =
      if j < s.intervalsInWindow.toNat then 0 else value (j - s.intervalsInWindow.toNat) := by
  rw [sample, List.getD_eq_getElem?_getD, UInt32.toNat_toUInt64, hcell]
  split_ifs with hlt
  · rw [Nat.mod_eq_of_lt hlt, h.unused j hkj hlt, Option.getD_some]
  · rw [Nat.mod_eq_sub_mod (Nat.not_lt.mp hlt), hc.ring.cell _ (by omega) (by omega),
      Option.getD_some]

/-- The loop from the bucket of `j` on adds the values of the intervals from a lap before `j` up to
the current one. -/
theorem Spans.sumFrom_eq (h : s.Spans k) (hc : s.Counts k value) {fuel j : ℕ} (hkj : k < j)
    (hjk : j < k + s.intervalsInWindow.toNat) (hfuel : k + s.intervalsInWindow.toNat ≤ j + fuel)
    {c : UInt32} (hcell : c.toNat = j % s.intervalsInWindow.toNat) (total : UInt64) :
    s.sumFrom fuel c total = total +
      .ofNat (∑ i ∈ Finset.Ico (j - s.intervalsInWindow.toNat) k, (value i).toNat) := by
  have hn : 0 < s.intervalsInWindow.toNat := by have := hc.two_le; omega
  induction fuel generalizing j c total with
  | zero => omega
  | succ fuel ih =>
    have hnext := s.getNextInterval_toUInt64_toNat hn hcell
    have hsample := h.sample_eq hc hkj hjk hcell
    -- the value of this bucket and what is left for the next one
    have hsplit : s.sample c.toUInt64 +
        .ofNat (∑ i ∈ Finset.Ico (j + 1 - s.intervalsInWindow.toNat) k, (value i).toNat) =
        .ofNat (∑ i ∈ Finset.Ico (j - s.intervalsInWindow.toNat) k, (value i).toNat) := by
      rw [hsample]
      split_ifs with hlt
      · rw [UInt64.zero_add, Nat.sub_eq_zero_of_le hlt, Nat.sub_eq_zero_of_le hlt.le]
      · rw [Finset.sum_eq_sum_Ico_succ_bot (show j - s.intervalsInWindow.toNat < k by omega),
          UInt64.ofNat_add, UInt64.ofNat_toNat, Nat.sub_add_comm (Nat.not_lt.mp hlt)]
    simp only [sumFrom]
    split_ifs with hend
    · have hlast : j + 1 ≠ k + s.intervalsInWindow.toNat := by
        rintro heq
        apply hend
        apply UInt64.toNat_inj.mp
        rw [UInt32.toNat_toUInt64, hnext, heq, Nat.add_mod_right, hc.current]
      rw [ih (by omega) (by omega) (by omega) hnext, UInt64.add_assoc, hsplit]
    · have hlast : j + 1 = k + s.intervalsInWindow.toNat := by
        by_contra hne
        have hcur := congrArg UInt64.toNat (not_not.mp hend)
        rw [UInt32.toNat_toUInt64, hnext, hc.current] at hcur
        exact mod_ne_mod (by omega) (by omega) hcur.symm
      rw [← hsplit, hlast, Nat.add_sub_cancel, Finset.Ico_self]
      simp

/-! ### The sum of a query -/

section Sum

variable (s) (nowMs periodMs : UInt64)

/-- The sum apart from a part of the current interval. -/
def wholeSum : UInt64 :=
  if s.Divides nowMs periodMs then
    if s.lastValuePartInInterval nowMs < 1 then s.loopSum nowMs periodMs
    else s.loopSum nowMs periodMs + s.sample s.currentInterval
  else 0

/-- A part of the current interval is added to the sum. -/
def UsesPart : Prop := s.Divides nowMs periodMs ∧ s.lastValuePartInInterval nowMs < 1

theorem totalSum_eq (h : s.Divides nowMs periodMs) :
    s.totalSum nowMs periodMs = if s.lastValuePartInInterval nowMs < 1 then
      .ofNat ⌊toDouble (toDouble (s.wholeSum nowMs periodMs).toNat + s.proportionalValue nowMs)⌋.toNat
    else s.wholeSum nowMs periodMs := by
  rw [totalSum, wholeSum, if_pos h]
  split_ifs <;> rfl

variable (sizeMs : ℕ) (adds : List (UInt64 × UInt64))

/-- The interval `j` and the period have a time in common. -/
def Intersects (j : ℕ) : Prop :=
  startMs adds + j * sizeMs ≤ nowMs.toNat ∧
    nowMs.toNat < startMs adds + (j + 1) * sizeMs + periodMs.toNat

/-- The interval `j` lies wholly inside the period. -/
def Inside (j : ℕ) : Prop :=
  nowMs.toNat ≤ startMs adds + j * sizeMs + periodMs.toNat ∧
    startMs adds + (j + 1) * sizeMs ≤ nowMs.toNat

/-- The sum is made of intervals that intersect the period, and has all values of the intervals
wholly inside it that are `owed`. -/
def SumsPeriod (owed : ℕ → Prop) : Prop :=
  ∃ used : Finset ℕ,
    s.wholeSum nowMs periodMs = .ofNat (∑ j ∈ used, (sumOf sizeMs adds j).toNat) ∧
    (∀ j ∈ used, Intersects nowMs periodMs sizeMs adds j) ∧
    (s.UsesPart nowMs periodMs → ∀ last ∈ adds.getLast?,
      Intersects nowMs periodMs sizeMs adds (intervalOf sizeMs adds last.1)) ∧
    ∀ a ∈ adds, Inside nowMs periodMs sizeMs adds (intervalOf sizeMs adds a.1) →
      owed (intervalOf sizeMs adds a.1) → intervalOf sizeMs adds a.1 ∈ used

/-- The interval is one of the last ones. -/
def InWindow (intervals j : ℕ) : Prop :=
  ∀ last ∈ adds.getLast?, intervalOf sizeMs adds last.1 < j + intervals

/-- The intervals of the window in front of the period, of which the window has `k + 1` with those
that have left it. -/
def skipped (intervals k : ℕ) : ℕ :=
  (nowMs.toNat - periodMs.toNat - (startMs adds + (k + 1 - intervals) * sizeMs)) / sizeMs

/-- The period starts with the first interval of the window or behind the window, or in a full
window before its last interval. -/
structure Queries (intervals : ℕ) : Prop where
  le_now : periodMs ≤ nowMs
  small : intervals ≤ 2147483648
  placed : ∀ last ∈ adds.getLast?,
    let k := intervalOf sizeMs adds last.1
    skipped nowMs periodMs sizeMs adds intervals k < 4294967296 ∧
      (skipped nowMs periodMs sizeMs adds intervals k = 0 ∨
        intervals ≤ skipped nowMs periodMs sizeMs adds intervals k ∨
        intervals ≤ k + 1 ∧ skipped nowMs periodMs sizeMs adds intervals k + 1 < intervals)

end Sum

theorem one_le_lastValuePart {nowMs : UInt64} (hsize : 0 < s.intervalSizeMs.toNat)
    (h : s.intervalSizeMs.toNat ≤ (s.sinceInterval nowMs).toNat) :
    1 ≤ s.lastValuePartInInterval nowMs := by
  have hsize' : (0 : ℚ) < s.intervalSizeMs.toNat := Nat.cast_pos.mpr hsize
  refine one_le_toDouble ((one_le_div (toDouble_pos hsize')).mpr ?_)
  exact toDouble_mono hsize' (Nat.cast_le.mpr h)

section Query

variable {intervalSizeMs : UInt64} {intervals : UInt32} {first : UInt64 × UInt64}
  {l : List (UInt64 × UInt64)} {last : UInt64 × UInt64} {nowMs periodMs : UInt64}

/-- The intervals in front of the period, as the code counts them. -/
theorem Tracks.intervalsBefore_toNat (h : Tracks intervalSizeMs intervals first l last s)
    (hspans : s.Spans (s.interval last.1)) (hp : periodMs ≤ nowMs)
    (hsmall : skipped nowMs periodMs intervalSizeMs.toNat (first :: l) intervals.toNat
      (s.interval last.1) < 4294967296) :
    (s.intervalsBefore nowMs periodMs).toNat =
      skipped nowMs periodMs intervalSizeMs.toNat (first :: l) intervals.toNat (s.interval last.1) := by
  have hstart := hspans.start
  rw [h.start, h.window, h.size] at hstart
  have hle : s.currentWindowStartMs ≤ s.intervalStartTime nowMs periodMs := by
    rw [UInt64.le_iff_toNat_le, intervalStartTime_toNat hp]
    omega
  have hdiff : (s.intervalStartTime nowMs periodMs - s.currentWindowStartMs).toNat =
      nowMs.toNat - periodMs.toNat - s.currentWindowStartMs.toNat := by
    rw [UInt64.toNat_sub_of_le _ _ hle, intervalStartTime_toNat hp]
    omega
  rw [intervalsBefore, UInt64.toNat_toUInt32, UInt64.toNat_div, hdiff, h.size, hstart]
  exact Nat.mod_eq_of_lt hsmall

/-- The first interval the loop reads. -/
theorem Queries.start (q : Queries nowMs periodMs intervalSizeMs.toNat (first :: l) intervals.toNat)
    (hlast : last ∈ (first :: l).getLast?) (hsize : 0 < intervalSizeMs.toNat)
    (hn : 2 ≤ intervals.toNat) {k i : ℕ} (hk : intervalOf intervalSizeMs.toNat (first :: l) last.1 = k)
    (hi : skipped nowMs periodMs intervalSizeMs.toNat (first :: l) intervals.toNat k = i)
    (hlt : i < intervals.toNat) :
    i + 1 < intervals.toNat ∧
      nowMs.toNat < first.1.toNat + (k + 1 + i - intervals.toNat + 1) * intervalSizeMs.toNat +
        periodMs.toNat ∧
      ∀ j, nowMs.toNat ≤ first.1.toNat + j * intervalSizeMs.toNat + periodMs.toNat →
        k < j + intervals.toNat → k + 1 + i - intervals.toNat ≤ j := by
  have hplaced := (q.placed last hlast).2
  rw [hk, hi] at hplaced
  have hperiod := UInt64.le_iff_toNat_le.mp q.le_now
  have hhigh : nowMs.toNat - periodMs.toNat -
      (first.1.toNat + (k + 1 - intervals.toNat) * intervalSizeMs.toNat) <
        (i + 1) * intervalSizeMs.toNat := by
    rw [← hi]
    exact (Nat.lt_mul_div_succ _ hsize).trans_eq (Nat.mul_comm ..)
  have hlow : i * intervalSizeMs.toNat ≤ nowMs.toNat - periodMs.toNat -
      (first.1.toNat + (k + 1 - intervals.toNat) * intervalSizeMs.toNat) := by
    rw [← hi]
    exact Nat.div_mul_le_self ..
  -- either all of the window counts, or the window is full
  have hfirst : k + 1 + i - intervals.toNat = k + 1 - intervals.toNat + i := by omega
  refine ⟨by omega, ?_, fun j hj hjk => ?_⟩
  · have hsum : (k + 1 - intervals.toNat + i + 1) * intervalSizeMs.toNat =
        (k + 1 - intervals.toNat) * intervalSizeMs.toNat + (i + 1) * intervalSizeMs.toNat := by
      rw [Nat.add_assoc, Nat.add_mul]
    rw [hfirst, hsum]
    omega
  · by_contra hless
    have hpos : 0 < i := by omega
    have hmul : (j + 1) * intervalSizeMs.toNat ≤
        (k + 1 - intervals.toNat + i) * intervalSizeMs.toNat :=
      Nat.mul_le_mul_right _ (by omega)
    have hone : intervalSizeMs.toNat ≤ i * intervalSizeMs.toNat := Nat.le_mul_of_pos_left _ hpos
    rw [Nat.succ_mul, Nat.add_mul] at hmul
    omega

/-- The loop of a query whose period starts in the window. -/
theorem Spans.loopSum_eq (h : s.Spans k) (hc : s.Counts k value)
    (hsmall : s.intervalsInWindow.toNat ≤ 2147483648) {i : ℕ}
    (hi : (s.intervalsBefore nowMs periodMs).toNat = i) (hlt : i + 1 < s.intervalsInWindow.toNat) :
    s.loopSum nowMs periodMs =
      .ofNat (∑ j ∈ Finset.Ico (k + 1 + i - s.intervalsInWindow.toNat) k, (value j).toNat) := by
  have hmod : k % s.intervalsInWindow.toNat < s.intervalsInWindow.toNat := Nat.mod_lt _ (by omega)
  have hsum : (s.currentInterval + (s.intervalsBefore nowMs periodMs).toUInt64).toUInt32.toNat =
      k % s.intervalsInWindow.toNat + i := by
    rw [UInt64.toNat_toUInt32, UInt64.toNat_add, UInt32.toNat_toUInt64, hi, hc.current]
    omega
  have hcell : (s.getNextInterval
      (s.currentInterval + (s.intervalsBefore nowMs periodMs).toUInt64).toUInt32).toNat =
        (k + 1 + i) % s.intervalsInWindow.toNat := by
    rw [getNextInterval, UInt32.toNat_mod, UInt32.toNat_add, hsum, UInt32.toNat_one,
      Nat.mod_eq_of_lt (by omega : k % s.intervalsInWindow.toNat + i + 1 < 2 ^ 32), Nat.add_assoc,
      Nat.mod_add_mod, Nat.add_comm i, Nat.add_assoc]
  rw [loopSum, h.sumFrom_eq hc (by omega) (by omega) (by omega) hcell, UInt64.zero_add]

/-- Since when the current interval counts. -/
theorem EndsWith.sinceInterval_toNat (h : s.EndsWith k)
    (hle : s.calculationStartMs.toNat + k * s.intervalSizeMs.toNat ≤ nowMs.toNat) :
    (s.sinceInterval nowMs).toNat =
      nowMs.toNat - (s.calculationStartMs.toNat + k * s.intervalSizeMs.toNat) := by
  have hbegin : s.currentWindowEndMs - s.intervalSizeMs =
      .ofNat (s.calculationStartMs.toNat + k * s.intervalSizeMs.toNat) := by
    rw [h, Nat.succ_mul, ← Nat.add_assoc, UInt64.ofNat_add _ s.intervalSizeMs.toNat,
      UInt64.ofNat_toNat, UInt64.add_sub_cancel]
  have hnow := nowMs.toNat_lt
  have hnat : (UInt64.ofNat (s.calculationStartMs.toNat + k * s.intervalSizeMs.toNat)).toNat =
      s.calculationStartMs.toNat + k * s.intervalSizeMs.toNat := by
    rw [UInt64.toNat_ofNat', Nat.mod_eq_of_lt (by omega)]
  rw [sinceInterval, hbegin, UInt64.toNat_sub_of_le _ _ (by rwa [UInt64.le_iff_toNat_le, hnat]), hnat]

/-- A query of a window that is as it should be. -/
theorem Tracks.sumsPeriod (h : Tracks intervalSizeMs intervals first l last s)
    (hspans : s.Spans (s.interval last.1)) (hlast : last ∈ (first :: l).getLast?)
    (hord : Ordered (first :: l)) (hsize : 0 < intervalSizeMs.toNat) (hnow : last.1 ≤ nowMs)
    (q : Queries nowMs periodMs intervalSizeMs.toNat (first :: l) intervals.toNat) :
    s.SumsPeriod nowMs periodMs intervalSizeMs.toNat (first :: l)
      (InWindow intervalSizeMs.toNat (first :: l) intervals.toNat) := by
  have hint := congrFun h.interval_eq last.1
  generalize hk : s.interval last.1 = k at hint hspans
  have hcounts := h.counts
  have hends := h.ends
  rw [hk] at hcounts hends
  have hplaced := q.placed last hlast
  simp only [← hint] at hplaced
  have hbefore := h.intervalsBefore_toNat (by rwa [hk]) q.le_now (by rw [hk]; exact hplaced.1)
  rw [hk] at hbefore
  generalize hi : skipped nowMs periodMs intervalSizeMs.toNat (first :: l) intervals.toNat k = i at *
  have hfirst : first.1.toNat ≤ last.1.toNat :=
    UInt64.le_iff_toNat_le.mp (hord.le_last hlast first (List.mem_cons_self ..))
  have hnow' := UInt64.le_iff_toNat_le.mp hnow
  have hkz : first.1.toNat + k * intervalSizeMs.toNat ≤ nowMs.toNat := by
    have hmul := Nat.div_mul_le_self (last.1.toNat - first.1.toNat) intervalSizeMs.toNat
    rw [show (last.1.toNat - first.1.toNat) / intervalSizeMs.toNat = k from hint.symm] at hmul
    omega
  have hle : ∀ a ∈ first :: l, intervalOf intervalSizeMs.toNat (first :: l) a.1 ≤ k := by
    intro a ha
    rw [hint]
    exact Nat.div_le_div_right
      (Nat.sub_le_sub_right (UInt64.le_iff_toNat_le.mp (hord.le_last hlast a ha)) _)
  have hstartMs : startMs (first :: l) = first.1.toNat := rfl
  have hdivides : s.Divides nowMs periodMs ↔ i < intervals.toNat := by
    rw [Divides, UInt32.lt_iff_toNat_lt, hbefore, h.window]
    exact and_iff_right hcounts.initialized
  by_cases hd : s.Divides nowMs periodMs
  · obtain ⟨hturns, hstart, hinside⟩ := q.start hlast hsize (by have := hcounts.two_le; rwa [h.window] at this)
      hint.symm hi (hdivides.mp hd)
    have hloop := hspans.loopSum_eq hcounts (by rw [h.window]; exact q.small) hbefore
      (by rw [h.window]; exact hturns)
    rw [h.window] at hloop
    have hfk : k + 1 + i - intervals.toNat ≤ k := by omega
    have hintersects : ∀ j, k + 1 + i - intervals.toNat ≤ j → j ≤ k →
        Intersects nowMs periodMs intervalSizeMs.toNat (first :: l) j := by
      intro j hj hjk
      have hlow := Nat.mul_le_mul_right intervalSizeMs.toNat hjk
      have hhigh := Nat.mul_le_mul_right intervalSizeMs.toNat (Nat.add_le_add_right hj 1)
      rw [Intersects, hstartMs]
      omega
    by_cases hpart : s.lastValuePartInInterval nowMs < 1
    · refine ⟨Finset.Ico (k + 1 + i - intervals.toNat) k, ?_, ?_, ?_, ?_⟩
      · rw [wholeSum, if_pos hd, if_pos hpart, hloop]
      · intro j hj
        obtain ⟨hj, hjk⟩ := Finset.mem_Ico.mp hj
        exact hintersects j hj hjk.le
      · intro _ last' hlast'
        obtain rfl : last' = last := Option.some.inj (hlast'.symm.trans hlast)
        rw [← hint]
        exact hintersects k hfk le_rfl
      · intro a ha hin howed
        have hjk := howed last hlast
        rw [← hint] at hjk
        refine Finset.mem_Ico.mpr ⟨hinside _ hin.1 hjk, (hle a ha).lt_of_ne fun heq => ?_⟩
        -- the current interval is over, so all of it counts
        refine absurd hpart (not_lt.mpr (one_le_lastValuePart (by rwa [h.size]) ?_))
        have hover := hin.2
        rw [heq, hstartMs, Nat.succ_mul] at hover
        rw [hends.sinceInterval_toNat (by rwa [h.start, h.size]), h.start, h.size]
        omega
    · refine ⟨Finset.Ico (k + 1 + i - intervals.toNat) (k + 1), ?_, ?_, ?_, ?_⟩
      · rw [wholeSum, if_pos hd, if_neg hpart, hloop, hcounts.sample_current,
          Finset.sum_Ico_succ_top hfk, UInt64.ofNat_add, UInt64.ofNat_toNat]
      · intro j hj
        obtain ⟨hj, hjk⟩ := Finset.mem_Ico.mp hj
        exact hintersects j hj (Nat.le_of_lt_succ hjk)
      · exact fun hused => absurd hused.2 hpart
      · intro a ha hin howed
        have hjk := howed last hlast
        rw [← hint] at hjk
        exact Finset.mem_Ico.mpr ⟨hinside _ hin.1 hjk, Nat.lt_succ_of_le (hle a ha)⟩
  · -- the period starts behind the window
    refine ⟨∅, by rw [wholeSum, if_neg hd]; rfl, by simp, fun hpart => absurd hpart.1 hd, ?_⟩
    intro a ha hin _
    have hbehind : intervals.toNat ≤ i := Nat.not_lt.mp fun hlt => hd (hdivides.mpr hlt)
    have hj := Nat.mul_le_mul_right intervalSizeMs.toNat (hle a ha)
    have hlow : i * intervalSizeMs.toNat ≤ nowMs.toNat - periodMs.toNat -
        (first.1.toNat + (k + 1 - intervals.toNat) * intervalSizeMs.toNat) := by
      rw [← hi]
      exact Nat.div_mul_le_self ..
    have hlap : (k + 1) * intervalSizeMs.toNat ≤
        (k + 1 - intervals.toNat) * intervalSizeMs.toNat + i * intervalSizeMs.toNat := by
      rw [← Nat.add_mul]
      exact Nat.mul_le_mul_right _ (by omega)
    have hpos : 0 < i * intervalSizeMs.toNat := by
      have := hcounts.two_le
      rw [h.window] at this
      exact Nat.mul_pos (by omega) hsize
    have hin' := hin.1
    rw [hstartMs] at hin'
    rw [Nat.succ_mul] at hlap
    omega

end Query

/-- After adds that come soon enough one after the other the sum of a query has what lies wholly
inside the period, as far as the window still has it, and nothing that does not intersect it. -/
theorem sumsPeriod_of_queries (intervalSizeMs : UInt64) (intervals : UInt32)
    (hsize : 0 < intervalSizeMs.toNat) (hn : 2 ≤ intervals.toNat) (adds : List (UInt64 × UInt64))
    (hord : Ordered adds) (hfits : Fits intervalSizeMs.toNat adds intervals.toNat)
    (hclock : ∀ a ∈ adds, a.1.toNat + intervalSizeMs.toNat < 2 ^ 64) (nowMs periodMs : UInt64)
    (hnow : ∀ a ∈ adds, a.1 ≤ nowMs)
    (q : Queries nowMs periodMs intervalSizeMs.toNat adds intervals.toNat) :
    (afterAdds intervalSizeMs intervals adds).SumsPeriod nowMs periodMs intervalSizeMs.toNat adds
      (InWindow intervalSizeMs.toNat adds intervals.toNat) := by
  cases adds with
  | nil =>
    have hd : ¬ (afterAdds intervalSizeMs intervals []).Divides nowMs periodMs :=
      fun h => absurd h.1 Bool.false_ne_true
    refine ⟨∅, ?_, by simp, fun hpart => absurd hpart.1 hd, by simp⟩
    rw [wholeSum, if_neg hd]
    rfl
  | cons first l =>
    obtain ⟨last, hlast⟩ : ∃ last, last ∈ (first :: l).getLast? :=
      ⟨_, List.getLast?_eq_some_getLast (List.cons_ne_nil first l)⟩
    have htracks := tracks_afterAdds hn hsize first l hord hfits last hlast
    have hspans := spans_afterAdds hn hsize first l hord hfits hclock last hlast
    exact htracks.sumsPeriod hspans hlast hord hsize (hnow last (List.mem_of_getLast? hlast)) q

/-- Two of the five intervals of a full window and a half of the current one. -/
theorem sumsPeriod_of_queries_full :
    let adds := [(1000, 100), (1100, 110), (1200, 120), (1300, 130), (1400, 140), (1500, 150), (1600, 160)]
    (afterAdds 100 5 adds).SumsPeriod 1650 250 100 adds (InWindow 100 adds 5) :=
  sumsPeriod_of_queries 100 5 (by decide) (by decide) _ (by decide +kernel) (by decide +kernel)
    (by simp) 1650 250 (by simp)
    ⟨by decide, by decide, by rintro last ⟨⟩; decide +kernel⟩

/-- Adds that are never more than the window apart. -/
def sparseAdds : List (UInt64 × UInt64) := [(1000, 1), (1400, 2), (1700, 4)]

example : Fits 100 sparseAdds 5 ∧ Queries 1800 800 100 sparseAdds 5 :=
  ⟨by decide +kernel, by decide, by decide, by rintro last ⟨⟩; decide +kernel⟩

theorem sumOf_sparseAdds (j : ℕ) : (sumOf 100 sparseAdds j).toNat =
    (if j = 0 then 1 else 0) + (if j = 4 then 2 else 0) + if j = 7 then 4 else 0 := by
  have h₀ : intervalOf 100 sparseAdds 1000 = 0 := by decide +kernel
  have h₄ : intervalOf 100 sparseAdds 1400 = 4 := by decide +kernel
  have h₇ : intervalOf 100 sparseAdds 1700 = 7 := by decide +kernel
  by_cases hzero : j = 0
  · subst hzero
    decide +kernel
  · by_cases hfour : j = 4
    · subst hfour
      decide +kernel
    · by_cases hseven : j = 7
      · subst hseven
        decide +kernel
      · rw [sparseAdds] at h₀ h₄ h₇ ⊢
        simp [sumOf, h₀, h₄, h₇, hzero, hfour, hseven, Ne.symm hzero, Ne.symm hfour,
          Ne.symm hseven]

/-- The window does not go back as far as a longer period. -/
theorem not_sumsPeriod : ¬∀ (intervalSizeMs : UInt64) (intervals : UInt32),
    0 < intervalSizeMs.toNat → 0 < intervals.toNat → ∀ adds : List (UInt64 × UInt64), Ordered adds →
      ∀ nowMs periodMs : UInt64, (∀ a ∈ adds, a.1 ≤ nowMs) → intervalSizeMs ≤ periodMs →
        (afterAdds intervalSizeMs intervals adds).SumsPeriod nowMs periodMs intervalSizeMs.toNat adds
          fun _ => True := by
  intro h
  obtain ⟨used, hsum, -, -, hinside⟩ := h 100 5 (by decide) (by decide) sparseAdds
    (by decide) 1800 800 (by simp [sparseAdds]) (by decide)
  have hzero : 0 ∈ used :=
    hinside (1000, 1) (List.mem_cons_self ..) ⟨by decide +kernel, by decide +kernel⟩ trivial
  have hpart : 1 ≤ (afterAdds 100 5 sparseAdds).lastValuePartInInterval 1800 :=
    one_le_lastValuePart (by decide) (by decide)
  have hwhole : (afterAdds 100 5 sparseAdds).wholeSum 1800 800 = 6 := by
    rw [wholeSum, if_pos (by decide), if_neg (not_lt.mpr hpart)]
    decide
  have htotal : ∑ j ∈ used, (sumOf 100 sparseAdds j).toNat =
      1 + (if 4 ∈ used then 2 else 0) + if 7 ∈ used then 4 else 0 := by
    simp only [sumOf_sparseAdds, Finset.sum_add_distrib, Finset.sum_ite_eq', hzero, if_true]
  rw [hwhole] at hsum
  have hnat := congrArg UInt64.toNat hsum
  rw [show (100 : UInt64).toNat = 100 from rfl, htotal] at hnat
  -- the sum with the value of the first interval is odd
  split_ifs at hnat <;> exact absurd hnat (by decide)

end KkLicode.Stats.MovingIntervalRateStat
