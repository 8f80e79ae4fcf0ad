import KkLicode.Base.Double
import KkLicode.Base.Runs
import KkLicode.Stats.MovingIntervalRateStat

/-! What `MovingIntervalRateStat::value` makes of the sums: the rate over a period
that ends with the query, of which the window may hold only a part. The last
interval counts by the part of it that is over. -/

namespace KkLicode.Stats.MovingIntervalRateStat

open Base Double

variable (s : MovingIntervalRateStat) (nowMs periodMs : UInt64)

/-- The start of the period, or of the window if that comes later. -/
def intervalStartTime : UInt64 := max (nowMs - periodMs) s.currentWindowStartMs

/-- The intervals of the window in front of the period. -/
def intervalsBefore : UInt32 :=
  ((s.intervalStartTime nowMs periodMs - s.currentWindowStartMs) / s.intervalSizeMs).toUInt32

/-- The loop over the buckets, which ends in front of the current one. -/
def sumFrom : ℕ → UInt32 → UInt64 → UInt64
  | 0, _, totalSum => totalSum
  | fuel + 1, movingInterval, totalSum =>
    let totalSum := totalSum + s.sample movingInterval.toUInt64
    let movingInterval := s.getNextInterval movingInterval
    if movingInterval.toUInt64 ≠ s.currentInterval then sumFrom fuel movingInterval totalSum
    else totalSum

/-- What the loop adds up; no loop takes more turns than there are buckets. -/
def loopSum : UInt64 :=
  s.sumFrom s.intervalsInWindow.toNat
    (s.getNextInterval (s.currentInterval + (s.intervalsBefore nowMs periodMs).toUInt64).toUInt32) 0

/-- The time since the current interval began. -/
def sinceInterval : UInt64 := nowMs - (s.currentWindowEndMs - s.intervalSizeMs)

def lastValuePartInInterval : ℚ :=
  toDouble (toDouble (s.sinceInterval nowMs).toNat / toDouble s.intervalSizeMs.toNat)

def proportionalValue : ℚ :=
  toDouble (s.lastValuePartInInterval nowMs * toDouble (s.sample s.currentInterval).toNat)

/-- The sum with what the current interval gives to it. -/
def totalSum : UInt64 :=
  if s.lastValuePartInInterval nowMs < 1 then
    .ofNat ⌊toDouble (toDouble (s.loopSum nowMs periodMs).toNat + s.proportionalValue nowMs)⌋.toNat
  else s.loopSum nowMs periodMs + s.sample s.currentInterval

/-- The time the sum is divided by. -/
def divisor : UInt64 := nowMs - s.intervalStartTime nowMs periodMs

/-- `calculateRateForInterval`. There is no result where the behaviour is undefined: a
quotient by zero, or a rate outside their range, is no unsigned number. -/
def calculateRateForInterval (scale : ℚ) : Option UInt64 :=
  if !s.initialized then some 0
  else if s.intervalsBefore nowMs periodMs ≥ s.intervalsInWindow then some 0
  else if s.divisor nowMs periodMs = 0 then none
  else
    let rate := toDouble (toDouble (s.totalSum nowMs periodMs).toNat /
      toDouble (s.divisor nowMs periodMs).toNat)
    let result := toDouble (toDouble (rate * 1000) * scale)
    if -1 < result ∧ result < 18446744073709551616 then some (.ofNat ⌊result⌋.toNat) else none

/-! ### Whether the rate is defined -/

/-- The differences a query takes, in their order. -/
def differences : List (UInt64 × UInt64) :=
  if !s.initialized then []
  else
    (nowMs, periodMs) :: (s.intervalStartTime nowMs periodMs, s.currentWindowStartMs) ::
      if s.intervalsBefore nowMs periodMs ≥ s.intervalsInWindow then []
      else [(s.currentWindowEndMs, s.intervalSizeMs),
        (nowMs, s.currentWindowEndMs - s.intervalSizeMs),
        (nowMs, s.intervalStartTime nowMs periodMs)]

/-- The query divides by the time from the start of the period. -/
def Divides : Prop :=
  s.initialized = true ∧ s.intervalsBefore nowMs periodMs < s.intervalsInWindow

instance : Decidable (s.Divides nowMs periodMs) := inferInstanceAs (Decidable (_ ∧ _))

/-- No difference goes below zero, and the divisor is positive. -/
structure Defined : Prop where
  differences : ∀ x ∈ s.differences nowMs periodMs, x.2 ≤ x.1
  divisor : s.Divides nowMs periodMs → 0 < s.divisor nowMs periodMs

/-- The window reaches from interval to interval up to the end of one that began before the last
add. After a long gap it may end before the interval of the last add. -/
structure Timed (lastMs : UInt64) : Prop where
  initialized : s.initialized = true
  size : 0 < s.intervalSizeMs.toNat
  intervals : 0 < s.intervalsInWindow.toNat
  started : s.calculationStartMs ≤ lastMs
  accumulated : 0 < s.accumulatedIntervals.toNat
  windowEnd : s.currentWindowEndMs.toNat =
    s.calculationStartMs.toNat + s.accumulatedIntervals.toNat * s.intervalSizeMs.toNat
  windowStart : s.currentWindowStartMs.toNat = s.calculationStartMs.toNat +
    (s.accumulatedIntervals.toNat - s.intervalsInWindow.toNat) * s.intervalSizeMs.toNat
  reached : s.currentWindowEndMs.toNat ≤ lastMs.toNat + s.intervalSizeMs.toNat
  current : s.currentInterval.toNat = s.interval lastMs % s.intervalsInWindow.toNat

variable {s nowMs periodMs}

theorem toNat_max (a b : UInt64) : (max a b).toNat = max a.toNat b.toNat := by
  show (if a ≤ b then b else a).toNat = _
  split_ifs with h <;> rw [UInt64.le_iff_toNat_le] at h <;> omega

theorem toNat_min (a b : UInt64) : (min a b).toNat = min a.toNat b.toNat := by
  show (if a ≤ b then a else b).toNat = _
  split_ifs with h <;> rw [UInt64.le_iff_toNat_le] at h <;> omega

theorem intervalStartTime_toNat (hp : periodMs ≤ nowMs) :
    (s.intervalStartTime nowMs periodMs).toNat =
      max (nowMs.toNat - periodMs.toNat) s.currentWindowStartMs.toNat := by
  rw [intervalStartTime, toNat_max, UInt64.toNat_sub_of_le _ _ hp]

/-- With such a window a query is defined except for a period that starts before zero, or at the
very time the window starts. -/
theorem Timed.defined_iff {lastMs : UInt64} (h : s.Timed lastMs) (hlast : lastMs ≤ nowMs)
    (hperiod : 0 < periodMs) :
    s.Defined nowMs periodMs ↔ periodMs ≤ nowMs ∧ s.currentWindowStartMs < nowMs := by
  have hlast' := UInt64.le_iff_toNat_le.mp hlast
  have hperiod' : 0 < periodMs.toNat := UInt64.lt_iff_toNat_lt.mp hperiod
  have hone : s.intervalSizeMs.toNat ≤ s.accumulatedIntervals.toNat * s.intervalSizeMs.toNat :=
    Nat.le_mul_of_pos_left _ h.accumulated
  have hend := h.windowEnd
  have hreached := h.reached
  have hsize : s.intervalSizeMs ≤ s.currentWindowEndMs := UInt64.le_iff_toNat_le.mpr (by omega)
  have hbegan : s.currentWindowEndMs - s.intervalSizeMs ≤ nowMs := by
    rw [UInt64.le_iff_toNat_le, UInt64.toNat_sub_of_le _ _ hsize]
    omega
  constructor
  · intro hd
    have hp : periodMs ≤ nowMs :=
      hd.differences (nowMs, periodMs) (by simp [differences, h.initialized])
    refine ⟨hp, ?_⟩
    by_contra hlt
    have hle : nowMs.toNat ≤ s.currentWindowStartMs.toNat :=
      UInt64.le_iff_toNat_le.mp (UInt64.not_lt.mp hlt)
    -- the period starts with the window, so nothing of the window is before it
    have hstart : s.intervalStartTime nowMs periodMs = s.currentWindowStartMs := by
      apply UInt64.toNat_inj.mp
      rw [intervalStartTime_toNat hp]
      omega
    have hbefore : s.intervalsBefore nowMs periodMs = 0 := by
      rw [intervalsBefore, hstart, UInt64.sub_self, UInt64.zero_div]
      rfl
    have hdivides : s.Divides nowMs periodMs :=
      ⟨h.initialized, by rw [hbefore]; exact UInt32.lt_iff_toNat_lt.mpr h.intervals⟩
    have hmem : (nowMs, s.intervalStartTime nowMs periodMs) ∈ s.differences nowMs periodMs := by
      simp [differences, h.initialized, UInt32.not_le.mpr hdivides.2]
    have hsub : s.intervalStartTime nowMs periodMs ≤ nowMs := hd.differences _ hmem
    have hpos := UInt64.lt_iff_toNat_lt.mp (hd.divisor hdivides)
    rw [divisor, UInt64.toNat_sub_of_le _ _ hsub, hstart, UInt64.toNat_zero] at hpos
    omega
  · rintro ⟨hp, hlt⟩
    have hstart := @intervalStartTime_toNat s _ _ hp
    have hlt' := UInt64.lt_iff_toNat_lt.mp hlt
    have hle : s.intervalStartTime nowMs periodMs ≤ nowMs := by
      rw [UInt64.le_iff_toNat_le]
      omega
    refine ⟨fun x hx => ?_, fun _ => ?_⟩
    · have hwindow : s.currentWindowStartMs ≤ s.intervalStartTime nowMs periodMs := by
        rw [UInt64.le_iff_toNat_le]
        omega
      rw [differences, if_neg (by simp [h.initialized])] at hx
      split_ifs at hx
      · simp only [List.mem_cons, List.not_mem_nil, or_false] at hx
        rcases hx with rfl | rfl
        · exact hp
        · exact hwindow
      · simp only [List.mem_cons, List.not_mem_nil, or_false] at hx
        rcases hx with rfl | rfl | rfl | rfl | rfl
        · exact hp
        · exact hwindow
        · exact hsize
        · exact hbegan
        · exact hle
    · rw [divisor, UInt64.lt_iff_toNat_lt, UInt64.toNat_sub_of_le _ _ hle, UInt64.toNat_zero]
      omega

/-! ### Adds that keep the window -/

theorem updateWindowTimes_end
    (hlt : s.calculationStartMs.toNat + s.accumulatedIntervals.toNat * s.intervalSizeMs.toNat < 2 ^ 64) :
    s.updateWindowTimes.currentWindowEndMs.toNat =
      s.calculationStartMs.toNat + s.accumulatedIntervals.toNat * s.intervalSizeMs.toNat := by
  show (s.calculationStartMs + s.accumulatedIntervals * s.intervalSizeMs).toNat = _
  rw [UInt64.toNat_add, UInt64.toNat_mul, Nat.add_mod_mod, Nat.mod_eq_of_lt hlt]

theorem updateWindowTimes_start
    (hlt : s.calculationStartMs.toNat + s.accumulatedIntervals.toNat * s.intervalSizeMs.toNat < 2 ^ 64) :
    s.updateWindowTimes.currentWindowStartMs.toNat = s.calculationStartMs.toNat +
      (s.accumulatedIntervals.toNat - s.intervalsInWindow.toNat) * s.intervalSizeMs.toNat := by
  have hmin : min s.accumulatedIntervals s.intervalsInWindow.toUInt64 ≤ s.accumulatedIntervals := by
    rw [UInt64.le_iff_toNat_le, toNat_min]
    exact Nat.min_le_left ..
  have hless : (s.accumulatedIntervals.toNat - s.intervalsInWindow.toNat) * s.intervalSizeMs.toNat ≤
      s.accumulatedIntervals.toNat * s.intervalSizeMs.toNat :=
    Nat.mul_le_mul_right _ (Nat.sub_le ..)
  have hsub : (s.accumulatedIntervals -
      min s.accumulatedIntervals s.intervalsInWindow.toUInt64).toNat =
        s.accumulatedIntervals.toNat - s.intervalsInWindow.toNat := by
    rw [UInt64.toNat_sub_of_le _ _ hmin, toNat_min, UInt32.toNat_toUInt64]
    omega
  show (s.calculationStartMs + (s.accumulatedIntervals -
    min s.accumulatedIntervals s.intervalsInWindow.toUInt64) * s.intervalSizeMs).toNat = _
  rw [UInt64.toNat_add, UInt64.toNat_mul, hsub, Nat.add_mod_mod, Nat.mod_eq_of_lt (by omega)]

theorem passIntervals_accumulated (s : MovingIntervalRateStat) (n : ℕ) :
    (passInterval^[n] s).accumulatedIntervals = s.accumulatedIntervals + .ofNat n ∧
      (passInterval^[n] s).currentWindowEndMs = s.currentWindowEndMs ∧
      (passInterval^[n] s).currentWindowStartMs = s.currentWindowStartMs ∧
      (passInterval^[n] s).initialized = s.initialized := by
  induction n with
  | zero => exact ⟨(UInt64.add_zero _).symm, rfl, rfl, rfl⟩
  | succ n ih =>
    rw [Function.iterate_succ_apply']
    refine ⟨?_, ih.2⟩
    show (passInterval^[n] s).accumulatedIntervals + 1 = _
    rw [ih.1, UInt64.ofNat_add, UInt64.add_assoc]
    rfl

/-- An add keeps the window: before the end of the window it passes no interval, and behind it the
intervals it passes end in front of its own, so that the window is moved. -/
def Keeps (s : MovingIntervalRateStat) (a : UInt64 × UInt64) : Prop :=
  let s := s.firstAdd a.1
  a.1.toNat + s.intervalSizeMs.toNat < 2 ^ 64 ∧
    if a.1 < s.currentWindowEndMs then ¬ s.intervalsToPass a.1 > 0
    else s.intervalsToPass a.1 > 0 → (s.intervalsToPass a.1).toUInt32 < s.intervalsInWindow →
      (passInterval^[(s.intervalsToPass a.1).toUInt32.toNat] s).currentInterval ≠
        (s.getIntervalForTimeMs a.1).toUInt64

instance (s : MovingIntervalRateStat) (a : UInt64 × UInt64) : Decidable (s.Keeps a) :=
  inferInstanceAs (Decidable (_ ∧ ite _ _ _))

/-- The window is moved to the interval of the time, or to one in front of it. -/
theorem timed_updateWindowTimes {t : UInt64} (hinit : s.initialized = true)
    (hsize : 0 < s.intervalSizeMs.toNat) (hn : 0 < s.intervalsInWindow.toNat)
    (hstart : s.calculationStartMs ≤ t) (hacc : 0 < s.accumulatedIntervals.toNat)
    (hfits : t.toNat + s.intervalSizeMs.toNat < 2 ^ 64)
    (hreached : s.calculationStartMs.toNat + s.accumulatedIntervals.toNat * s.intervalSizeMs.toNat ≤
      t.toNat + s.intervalSizeMs.toNat)
    (hcurrent : s.currentInterval = (s.getIntervalForTimeMs t).toUInt64) :
    s.updateWindowTimes.Timed t := by
  have hwe := updateWindowTimes_end (hreached.trans_lt hfits)
  have hws := updateWindowTimes_start (hreached.trans_lt hfits)
  exact ⟨hinit, hsize, hn, hstart, hacc, hwe, hws, hwe.trans_le hreached,
    (congrArg UInt64.toNat hcurrent).trans (s.getIntervalForTimeMs_toNat hn hstart)⟩

/-- The end of `add`, behind the intervals that are passed: either the window holds the time, or it
ends with the interval in front of a new one. -/
theorem timed_addSample {t : UInt64} (hinit : s.initialized = true)
    (hsize : 0 < s.intervalSizeMs.toNat) (hn : 0 < s.intervalsInWindow.toNat)
    (hstart : s.calculationStartMs ≤ t) (hacc : 0 < s.accumulatedIntervals.toNat)
    (hfits : t.toNat + s.intervalSizeMs.toNat < 2 ^ 64)
    (hsame : s.currentInterval = (s.getIntervalForTimeMs t).toUInt64 →
      s.currentWindowEndMs.toNat =
        s.calculationStartMs.toNat + s.accumulatedIntervals.toNat * s.intervalSizeMs.toNat ∧
      s.currentWindowStartMs.toNat = s.calculationStartMs.toNat +
        (s.accumulatedIntervals.toNat - s.intervalsInWindow.toNat) * s.intervalSizeMs.toNat ∧
      s.currentWindowEndMs.toNat ≤ t.toNat + s.intervalSizeMs.toNat)
    (hnew : s.currentInterval ≠ (s.getIntervalForTimeMs t).toUInt64 →
      s.calculationStartMs.toNat + s.accumulatedIntervals.toNat * s.intervalSizeMs.toNat ≤ t.toNat)
    (v : UInt64) : (s.addSample t v).Timed t := by
  have hcorr := s.getIntervalForTimeMs_toNat hn hstart
  by_cases heq : s.currentInterval = (s.getIntervalForTimeMs t).toUInt64
  · obtain ⟨hwe, hws, hreached⟩ := hsame heq
    rw [addSample, if_neg (not_not.mpr heq.symm)]
    exact ⟨hinit, hsize, hn, hstart, hacc, hwe, hws, hreached,
      (congrArg UInt64.toNat heq).trans hcorr⟩
  · have hbound := hnew heq
    have hless : s.accumulatedIntervals.toNat ≤ s.accumulatedIntervals.toNat * s.intervalSizeMs.toNat :=
      Nat.le_mul_of_pos_right _ hsize
    have hsucc : (s.accumulatedIntervals + 1).toNat = s.accumulatedIntervals.toNat + 1 := by
      rw [UInt64.toNat_add, UInt64.toNat_one, Nat.mod_eq_of_lt (by omega)]
    have hnext : s.calculationStartMs.toNat +
        (s.accumulatedIntervals + 1).toNat * s.intervalSizeMs.toNat ≤
          t.toNat + s.intervalSizeMs.toNat := by
      rw [hsucc, Nat.succ_mul]
      omega
    have hmoved := @timed_updateWindowTimes
      { s with
        accumulatedIntervals := s.accumulatedIntervals + 1
        currentInterval := (s.getIntervalForTimeMs t).toUInt64 }
      t hinit hsize hn hstart (by rw [hsucc]; omega) hfits hnext rfl
    rw [addSample, if_pos (Ne.symm heq)]
    exact ⟨hinit, hsize, hn, hstart, hmoved.accumulated, hmoved.windowEnd, hmoved.windowStart,
      hmoved.reached, hmoved.current⟩

/-- The quotient behind the end of the window: the intervals between. -/
theorem Timed.quotient_mul_le {lastMs t : UInt64} (h : s.Timed lastMs)
    (hend : s.currentWindowEndMs ≤ t) :
    s.calculationStartMs.toNat + (s.accumulatedIntervals.toNat +
      ((t - s.currentWindowEndMs) / s.intervalSizeMs).toNat) * s.intervalSizeMs.toNat ≤ t.toNat := by
  have hwe := h.windowEnd
  have hle := UInt64.le_iff_toNat_le.mp hend
  have hdiv := Nat.div_mul_le_self (t.toNat - s.currentWindowEndMs.toNat) s.intervalSizeMs.toNat
  rw [UInt64.toNat_div, UInt64.toNat_sub_of_le _ _ hend, Nat.add_mul]
  omega

/-- Before the end of the window the time is in the current interval. -/
theorem Timed.current_of_lt {lastMs t : UInt64} (h : s.Timed lastMs) (hle : lastMs ≤ t)
    (hlt : t < s.currentWindowEndMs) :
    s.currentInterval = (s.getIntervalForTimeMs t).toUInt64 := by
  have hwe := h.windowEnd
  have hreached := h.reached
  have hstart := UInt64.le_iff_toNat_le.mp h.started
  have hle' := UInt64.le_iff_toNat_le.mp hle
  have hlt' := UInt64.lt_iff_toNat_lt.mp hlt
  obtain ⟨k, hk⟩ : ∃ k, s.accumulatedIntervals.toNat = k + 1 :=
    ⟨_, (Nat.succ_pred_eq_of_pos h.accumulated).symm⟩
  rw [hk, Nat.succ_mul] at hwe
  -- the last add is in the last interval of the window, and the time behind it, too
  have hin : ∀ u : UInt64, lastMs.toNat ≤ u.toNat → u.toNat < s.currentWindowEndMs.toNat →
      s.interval u = k := by
    intro u hu hu'
    rw [interval, Nat.div_eq_iff h.size]
    constructor
    · omega
    · omega
  apply UInt64.toNat_inj.mp
  rw [h.current, s.getIntervalForTimeMs_toNat h.intervals (UInt64.le_trans h.started hle),
    hin lastMs le_rfl (by omega), hin t hle' hlt']

theorem Timed.add {lastMs t : UInt64} (h : s.Timed lastMs) (hle : lastMs ≤ t) (v : UInt64)
    (hkeeps : s.Keeps (t, v)) : (s.add t v).Timed t := by
  have hfirst : s.firstAdd t = s := if_pos h.initialized
  have hstart : s.calculationStartMs ≤ t := UInt64.le_trans h.started hle
  have hwe := h.windowEnd
  have hreached := h.reached
  have hle' := UInt64.le_iff_toNat_le.mp hle
  simp only [Keeps, hfirst] at hkeeps
  obtain ⟨hfits, hkeeps⟩ := hkeeps
  simp only [MovingIntervalRateStat.add, hfirst]
  by_cases hlt : t < s.currentWindowEndMs
  · rw [if_pos hlt] at hkeeps
    rw [if_neg hkeeps]
    exact timed_addSample h.initialized h.size h.intervals hstart h.accumulated hfits
      (fun _ => ⟨hwe, h.windowStart, by omega⟩)
      (fun hne => absurd (h.current_of_lt hle hlt) hne) v
  · rw [if_neg hlt] at hkeeps
    have hend : s.currentWindowEndMs ≤ t := UInt64.not_lt.mp hlt
    have hend' := UInt64.le_iff_toNat_le.mp hend
    generalize hm : (s.intervalsToPass t).toUInt32.toNat = m at hkeeps
    have hmq : m ≤ ((t - s.currentWindowEndMs) / s.intervalSizeMs).toNat := by
      rw [← hm, intervalsToPass, UInt32.toUInt32_toInt32, UInt64.toNat_toUInt32]
      exact Nat.mod_le ..
    have hpassed : s.calculationStartMs.toNat +
        (s.accumulatedIntervals.toNat + m) * s.intervalSizeMs.toNat ≤ t.toNat :=
      (Nat.add_le_add_left (Nat.mul_le_mul_right _ (Nat.add_le_add_left hmq _)) _).trans
        (h.quotient_mul_le hend)
    have hless : s.accumulatedIntervals.toNat + m ≤
        (s.accumulatedIntervals.toNat + m) * s.intervalSizeMs.toNat :=
      Nat.le_mul_of_pos_right _ h.size
    have hsum : (s.accumulatedIntervals + .ofNat m).toNat = s.accumulatedIntervals.toNat + m := by
      rw [UInt64.toNat_add, UInt64.toNat_ofNat', Nat.add_mod_mod, Nat.mod_eq_of_lt (by omega)]
    by_cases hpos : s.intervalsToPass t > 0
    · rw [if_pos hpos]
      by_cases hge : (s.intervalsToPass t).toUInt32 ≥ s.intervalsInWindow
      · have hlong : (s.intervalsToPass t).toUInt32.toUInt64 = .ofNat m := by
          rw [← hm, UInt64.ofNat_uInt32ToNat]
        rw [← hsum] at hpassed
        rw [if_pos hge, hlong]
        refine timed_updateWindowTimes h.initialized h.size h.intervals hstart ?_ hfits ?_ rfl
        · show 0 < (s.accumulatedIntervals + .ofNat m).toNat
          have := h.accumulated
          omega
        · exact hpassed.trans (Nat.le_add_right ..)
      · obtain ⟨hsz, hw, hst⟩ := passIntervals_frame s m
        obtain ⟨hacc, -, -, hinit⟩ := passIntervals_accumulated s m
        have hcorr : (passInterval^[m] s).getIntervalForTimeMs t = s.getIntervalForTimeMs t := by
          rw [getIntervalForTimeMs, hst, hsz, hw, getIntervalForTimeMs]
        rw [if_neg hge]
        refine timed_addSample (hinit.trans h.initialized) ?_ ?_ ?_ ?_ ?_ (fun heq => ?_) (fun _ => ?_) v
        · rw [hsz]; exact h.size
        · rw [hw]; exact h.intervals
        · rw [hst]; exact hstart
        · rw [hacc, hsum]
          have := h.accumulated
          omega
        · rw [hsz]; exact hfits
        · rw [hcorr] at heq
          exact absurd heq (hkeeps hpos (UInt32.not_le.mp hge))
        · rw [hst, hacc, hsum, hsz]; exact hpassed
    · rw [if_neg hpos]
      exact timed_addSample h.initialized h.size h.intervals hstart h.accumulated hfits
        (fun _ => ⟨hwe, h.windowStart, by omega⟩) (fun _ => by omega) v

/-! ### Runs -/

variable {intervalSizeMs : UInt64} {intervals : UInt32} {adds : List (UInt64 × UInt64)}

theorem timed_firstAdd (hsize : 0 < intervalSizeMs.toNat) (hn : 0 < intervals.toNat) {t : UInt64}
    (hfits : t.toNat + intervalSizeMs.toNat < 2 ^ 64) :
    ((new intervalSizeMs intervals).firstAdd t).Timed t := by
  have hend : (t + 1 * intervalSizeMs).toNat = t.toNat + 1 * intervalSizeMs.toNat := by
    rw [UInt64.one_mul, Nat.one_mul, UInt64.toNat_add, Nat.mod_eq_of_lt hfits]
  refine ⟨rfl, hsize, hn, UInt64.le_refl t, Nat.one_pos, hend, ?_, ?_, ?_⟩
  · show t.toNat = t.toNat + (1 - intervals.toNat) * intervalSizeMs.toNat
    rw [Nat.sub_eq_zero_of_le hn, Nat.zero_mul, Nat.add_zero]
  · show (t + 1 * intervalSizeMs).toNat ≤ t.toNat + intervalSizeMs.toNat
    omega
  · show 0 = (t.toNat - t.toNat) / intervalSizeMs.toNat % intervals.toNat
    rw [Nat.sub_self, Nat.zero_div, Nat.zero_mod]

theorem keeps_firstAdd (s : MovingIntervalRateStat) (a : UInt64 × UInt64) :
    (s.firstAdd a.1).Keeps a ↔ s.Keeps a := by
  have hidem : (s.firstAdd a.1).firstAdd a.1 = s.firstAdd a.1 :=
    if_pos (firstAdd_initialized s a.1)
  simp only [Keeps, hidem]

/-- `add` as the step of a run. -/
def addStep (s : MovingIntervalRateStat) (a : UInt64 × UInt64) : MovingIntervalRateStat × Unit :=
  (s.add a.1 a.2, ())

theorem final_addStep (adds : List (UInt64 × UInt64)) (s : MovingIntervalRateStat) :
    Runs.final addStep s adds = adds.foldl (fun s a => s.add a.1 a.2) s := by
  induction adds generalizing s with
  | nil => rfl
  | cons a adds ih => exact ih _

/-- Adds in the order of time that keep the window. -/
theorem timed_afterAdds (hsize : 0 < intervalSizeMs.toNat) (hn : 0 < intervals.toNat)
    (hord : Ordered adds) (hkeeps : Runs.Steps addStep Keeps (new intervalSizeMs intervals) adds) :
    ∀ last ∈ adds.getLast?, (afterAdds intervalSizeMs intervals adds).Timed last.1 := by
  induction adds using List.reverseRecOn with
  | nil => simp
  | append_singleton l a ih =>
    obtain ⟨hl, ha⟩ := Runs.steps_append.mp hkeeps
    obtain ⟨hordl : Ordered l, -, hall⟩ := List.pairwise_append.mp hord
    have hkeep := ha.1
    rw [final_addStep] at hkeep
    intro last hlast
    rw [List.getLast?_concat] at hlast
    cases hlast
    rw [afterAdds, List.foldl_append]
    show ((afterAdds intervalSizeMs intervals l).add a.1 a.2).Timed a.1
    rcases List.eq_nil_or_concat l with rfl | ⟨l', b, rfl⟩
    · have hfirst := timed_firstAdd hsize hn hkeep.1
      rw [← add_firstAdd]
      exact hfirst.add (UInt64.le_refl _) a.2 ((keeps_firstAdd _ a).mpr hkeep)
    · have hprev := ih hordl hl b (by simp)
      exact hprev.add (hall b (by simp) a (List.mem_singleton_self a)) a.2 hkeep

/-- A query after adds that keep the window is defined exactly if the period does not start before
zero and the window before the query. -/
theorem query_defined_iff (intervalSizeMs : UInt64) (intervals : UInt32)
    (hsize : 0 < intervalSizeMs.toNat) (hn : 0 < intervals.toNat) (adds : List (UInt64 × UInt64))
    (hord : Ordered adds) (hkeeps : Runs.Steps addStep Keeps (new intervalSizeMs intervals) adds)
    (nowMs periodMs : UInt64) (hnow : ∀ a ∈ adds, a.1 ≤ nowMs) (hperiod : 0 < periodMs) :
    (afterAdds intervalSizeMs intervals adds).Defined nowMs periodMs ↔
      ((afterAdds intervalSizeMs intervals adds).initialized = true → periodMs ≤ nowMs ∧
        (afterAdds intervalSizeMs intervals adds).currentWindowStartMs < nowMs) := by
  rcases List.eq_nil_or_concat adds with rfl | ⟨l, last, rfl⟩
  · refine ⟨fun _ h => absurd h Bool.false_ne_true, fun _ => ⟨fun x hx => ?_, fun h => ?_⟩⟩
    · simp [differences, afterAdds, new] at hx
    · exact absurd h.1 Bool.false_ne_true
  · have htimed := timed_afterAdds hsize hn hord hkeeps last (by simp)
    rw [htimed.defined_iff (hnow last (by simp)) hperiod]
    exact ⟨fun h _ => h, fun h => h htimed.initialized⟩

/-- Half a second after adds with a gap of the whole window. -/
theorem query_defined_iff_gap :
    (afterAdds 100 5 [(1000, 7), (1040, 2), (1600, 5)]).Defined 1700 500 :=
  (query_defined_iff 100 5 (by decide) (by decide) [(1000, 7), (1040, 2), (1600, 5)] (by decide)
    (by decide) 1700 500 (by simp) (by decide)).mpr fun _ => by decide

/-- A query in the millisecond of the first add divides by zero. -/
theorem not_query_defined : ¬∀ (intervalSizeMs : UInt64) (intervals : UInt32),
    0 < intervalSizeMs.toNat → 0 < intervals.toNat → ∀ adds : List (UInt64 × UInt64), Ordered adds →
      ∀ nowMs periodMs : UInt64, (∀ a ∈ adds, a.1 ≤ nowMs) → 0 < periodMs →
        (afterAdds intervalSizeMs intervals adds).Defined nowMs periodMs := by
  intro h
  have hpos := (h 100 30 (by decide) (by decide) [(1000, 7)] (by decide) 1000 500 (by simp)
    (by decide)).divisor (by decide)
  exact absurd hpos (by decide)

end KkLicode.Stats.MovingIntervalRateStat
