import Mathlib.Data.List.Chain
import Mathlib.Data.List.Induction
import Mathlib.Logic.Function.Iterate
import KkLicode.Base.RecentRing

/-! `MovingIntervalRateStat`: how much was added in each of the last intervals.
The values of an interval are summed in the cell of its residue. Times are in
milliseconds. -/

namespace KkLicode.Stats

open Base

structure MovingIntervalRateStat where
  intervalSizeMs : UInt64
  intervalsInWindow : UInt32
  calculationStartMs : UInt64 := 0
  currentInterval : UInt64 := 0
  accumulatedIntervals : UInt64 := 0
  currentWindowStartMs : UInt64 := 0
  currentWindowEndMs : UInt64 := 0
  sampleVector : List UInt64
  initialized : Bool := false
  deriving DecidableEq, Repr

namespace MovingIntervalRateStat

/-- The constructor. -/
def new (intervalSizeMs : UInt64) (intervals : UInt32) : MovingIntervalRateStat where
  intervalSizeMs := intervalSizeMs
  intervalsInWindow := intervals
  sampleVector := List.replicate intervals.toNat 0

variable (s : MovingIntervalRateStat)

def getIntervalForTimeMs (timeMs : UInt64) : UInt32 :=
  ((timeMs - s.calculationStartMs) / s.intervalSizeMs % s.intervalsInWindow.toUInt64).toUInt32

def getNextInterval (interval : UInt32) : UInt32 := (interval + 1) % s.intervalsInWindow

def updateWindowTimes : MovingIntervalRateStat :=
  { s with
    currentWindowEndMs := s.calculationStartMs + s.accumulatedIntervals * s.intervalSizeMs
    currentWindowStartMs := s.calculationStartMs +
      (s.accumulatedIntervals - min s.accumulatedIntervals s.intervalsInWindow.toUInt64) *
        s.intervalSizeMs }

def setSample (interval value : UInt64) : MovingIntervalRateStat :=
  { s with sampleVector := s.sampleVector.set interval.toNat value }

def sample (interval : UInt64) : UInt64 := s.sampleVector.getD interval.toNat 0

/-- The start of `add`, when nothing was added before. -/
def firstAdd (nowMs : UInt64) : MovingIntervalRateStat :=
  if s.initialized then s
  else { s with
    calculationStartMs := nowMs
    initialized := true
    accumulatedIntervals := 1
    currentWindowStartMs := nowMs
    currentWindowEndMs := nowMs + 1 * s.intervalSizeMs }

/-- The quotient of unsigned numbers, narrowed to thirty-two bits with a sign. -/
def intervalsToPass (nowMs : UInt64) : Int32 :=
  ((nowMs - s.currentWindowEndMs) / s.intervalSizeMs).toUInt32.toInt32

/-- One turn of the loop over the intervals to pass. -/
def passInterval : MovingIntervalRateStat :=
  let s := { s with
    currentInterval := (s.getNextInterval s.currentInterval.toUInt32).toUInt64 }
  let s := s.setSample s.currentInterval 0
  { s with accumulatedIntervals := s.accumulatedIntervals + 1 }

/-- The time is not in the current interval. -/
def startInterval (correspondingInterval : UInt64) : MovingIntervalRateStat :=
  let s := s.setSample correspondingInterval 0
  let s := { s with accumulatedIntervals := s.accumulatedIntervals + 1 }.updateWindowTimes
  { s with currentInterval := correspondingInterval }

/-- The end of `add`. -/
def addSample (nowMs value : UInt64) : MovingIntervalRateStat :=
  let correspondingInterval := (s.getIntervalForTimeMs nowMs).toUInt64
  let s := if correspondingInterval ≠ s.currentInterval then s.startInterval correspondingInterval
    else s
  s.setSample s.currentInterval (s.sample s.currentInterval + value)

/-- `add`, with the reading of the clock. -/
def add (nowMs value : UInt64) : MovingIntervalRateStat :=
  let s := s.firstAdd nowMs
  let intervalsToPass := s.intervalsToPass nowMs
  if intervalsToPass > 0 then
    if intervalsToPass.toUInt32 ≥ s.intervalsInWindow then
      let s := { s with sampleVector := List.replicate s.intervalsInWindow.toNat 0 }
      let s := { s with
        currentInterval := (s.getIntervalForTimeMs nowMs).toUInt64
        accumulatedIntervals := s.accumulatedIntervals + intervalsToPass.toUInt32.toUInt64 }
      (s.setSample s.currentInterval (s.sample s.currentInterval + value)).updateWindowTimes
    else (passInterval^[intervalsToPass.toUInt32.toNat] s).addSample nowMs value
  else s.addSample nowMs value

end MovingIntervalRateStat

/-! ### Intervals -/

namespace MovingIntervalRateStat

open RecentRing

variable {s : MovingIntervalRateStat} {k : ℕ} {value : ℕ → UInt64}

/-- The interval of a time, counted from the first one. -/
def interval (s : MovingIntervalRateStat) (timeMs : UInt64) : ℕ :=
  (timeMs.toNat - s.calculationStartMs.toNat) / s.intervalSizeMs.toNat

/-- The ring is at the interval `k` and has the sums of the last intervals. -/
structure Counts (s : MovingIntervalRateStat) (k : ℕ) (value : ℕ → UInt64) : Prop where
  two_le : 2 ≤ s.intervalsInWindow.toNat
  initialized : s.initialized = true
  ring : Holds s.intervalsInWindow.toNat s.sampleVector value k
  current : s.currentInterval.toNat = k % s.intervalsInWindow.toNat
  accumulated : s.accumulatedIntervals = .ofNat (k + 1)

/-- The window ends with the interval `k`. -/
def EndsWith (s : MovingIntervalRateStat) (k : ℕ) : Prop :=
  s.currentWindowEndMs = .ofNat (s.calculationStartMs.toNat + (k + 1) * s.intervalSizeMs.toNat)

theorem getIntervalForTimeMs_toNat (s : MovingIntervalRateStat) {timeMs : UInt64}
    (hn : 0 < s.intervalsInWindow.toNat) (ht : s.calculationStartMs ≤ timeMs) :
    (s.getIntervalForTimeMs timeMs).toUInt64.toNat =
      s.interval timeMs % s.intervalsInWindow.toNat := by
  have hlt := s.intervalsInWindow.toNat_lt
  have hmod : s.interval timeMs % s.intervalsInWindow.toNat < s.intervalsInWindow.toNat :=
    Nat.mod_lt _ hn
  rw [UInt32.toNat_toUInt64, getIntervalForTimeMs, UInt64.toNat_toUInt32, UInt64.toNat_mod,
    UInt64.toNat_div, UInt64.toNat_sub_of_le _ _ ht, UInt32.toNat_toUInt64]
  exact Nat.mod_eq_of_lt (hmod.trans hlt)

theorem getNextInterval_toNat (h : s.Counts k value) :
    (s.getNextInterval s.currentInterval.toUInt32).toUInt64.toNat =
      (k + 1) % s.intervalsInWindow.toNat := by
  have hlt := s.intervalsInWindow.toNat_lt
  have hmod : k % s.intervalsInWindow.toNat < s.intervalsInWindow.toNat :=
    Nat.mod_lt _ (by have := h.two_le; omega)
  have hsmall : k % s.intervalsInWindow.toNat + 1 < 2 ^ 32 := by omega
  have hone : (1 : UInt32).toNat = 1 := rfl
  rw [UInt32.toNat_toUInt64, getNextInterval, UInt32.toNat_mod, UInt32.toNat_add,
    UInt64.toNat_toUInt32, h.current, hone, Nat.mod_eq_of_lt (hmod.trans hlt),
    Nat.mod_eq_of_lt hsmall, Nat.mod_add_mod]

/-- The number is positive if its lower half is, read with a sign. -/
theorem toInt32_pos_iff (q : UInt64) : q.toUInt32.toInt32 > 0 ↔
    0 < q.toNat % 4294967296 ∧ q.toNat % 4294967296 < 2147483648 := by
  have hint : q.toUInt32.toInt32.toInt =
      if 2 * (q.toNat % 4294967296) < 4294967296 then ((q.toNat % 4294967296 : ℕ) : ℤ)
      else (q.toNat % 4294967296 : ℕ) - 4294967296 := by
    rw [Int32.toInt, UInt32.toBitVec_toInt32, BitVec.toInt_eq_toNat_cond, UInt32.toNat_toBitVec,
      UInt64.toNat_toUInt32]
    rfl
  rw [gt_iff_lt, Int32.lt_iff_toInt_lt, hint, Int32.toInt_zero]
  split_ifs <;> omega

/-- An interval that is passed has nothing in it. -/
theorem Counts.passInterval (h : s.Counts k value) (hv : value (k + 1) = 0) :
    s.passInterval.Counts (k + 1) value where
  two_le := h.two_le
  initialized := h.initialized
  ring := by
    have hnext := h.ring.next (by have := h.two_le; omega)
    rwa [hv, ← getNextInterval_toNat h] at hnext
  current := getNextInterval_toNat h
  accumulated := by
    show s.accumulatedIntervals + 1 = _
    rw [h.accumulated, UInt64.ofNat_add (k + 1)]
    rfl

theorem Counts.passIntervals (h : s.Counts k value) (n : ℕ)
    (hv : ∀ j, k < j → j ≤ k + n → value j = 0) :
    (MovingIntervalRateStat.passInterval^[n] s).Counts (k + n) value := by
  induction n with
  | zero => exact h
  | succ n ih =>
    rw [Function.iterate_succ_apply']
    exact (ih fun j hj hjn => hv j hj (by omega)).passInterval (hv _ (by omega) (by omega))

theorem passIntervals_frame (s : MovingIntervalRateStat) (n : ℕ) :
    (passInterval^[n] s).intervalSizeMs = s.intervalSizeMs ∧
      (passInterval^[n] s).intervalsInWindow = s.intervalsInWindow ∧
      (passInterval^[n] s).calculationStartMs = s.calculationStartMs := by
  induction n with
  | zero => exact ⟨rfl, rfl, rfl⟩
  | succ n ih => rwa [Function.iterate_succ_apply']

theorem Counts.sample_current (h : s.Counts k value) : s.sample s.currentInterval = value k := by
  have hn : 0 < s.intervalsInWindow.toNat := by have := h.two_le; omega
  rw [sample, List.getD_eq_getElem?_getD, h.current, h.ring.cell k le_rfl (by omega),
    Option.getD_some]

/-- The value goes into the cell of the interval. -/
theorem Counts.addValue (h : s.Counts k value) (v : UInt64) :
    (s.setSample s.currentInterval (s.sample s.currentInterval + v)).Counts k
      (Function.update value k (value k + v)) where
  two_le := h.two_le
  initialized := h.initialized
  ring := by
    have hn : 0 < s.intervalsInWindow.toNat := by have := h.two_le; omega
    have hset := h.ring.setNewest hn (value k + v)
    rw [← h.current] at hset
    rw [h.sample_current]
    exact hset
  current := h.current
  accumulated := h.accumulated

/-- A value of the interval the ring is at. -/
theorem Counts.addSample_same (h : s.Counts k value) (hend : s.EndsWith k) {nowMs : UInt64}
    (hle : s.calculationStartMs ≤ nowMs) (hk : s.interval nowMs = k) (v : UInt64) :
    (s.addSample nowMs v).Counts k (Function.update value k (value k + v)) ∧
      (s.addSample nowMs v).EndsWith k := by
  have hcorr : (s.getIntervalForTimeMs nowMs).toUInt64 = s.currentInterval := by
    apply UInt64.toNat_inj.mp
    rw [getIntervalForTimeMs_toNat s (by have := h.two_le; omega) hle, hk, h.current]
  rw [addSample, hcorr, if_neg (not_not.mpr rfl)]
  exact ⟨h.addValue v, hend⟩

theorem Counts.startInterval (h : s.Counts k value) (hv : value (k + 1) = 0) {i : UInt64}
    (hi : i.toNat = (k + 1) % s.intervalsInWindow.toNat) :
    (s.startInterval i).Counts (k + 1) value ∧ (s.startInterval i).EndsWith (k + 1) := by
  have hacc : s.accumulatedIntervals + 1 = .ofNat (k + 1 + 1) := by
    rw [h.accumulated, UInt64.ofNat_add (k + 1)]
    rfl
  have hring := h.ring.next (by have := h.two_le; omega)
  rw [hv, ← hi] at hring
  refine ⟨⟨h.two_le, h.initialized, hring, hi, hacc⟩, ?_⟩
  show s.calculationStartMs + (s.accumulatedIntervals + 1) * s.intervalSizeMs =
    .ofNat (s.calculationStartMs.toNat + (k + 1 + 1) * s.intervalSizeMs.toNat)
  rw [hacc, UInt64.ofNat_add s.calculationStartMs.toNat, UInt64.ofNat_mul, UInt64.ofNat_toNat, UInt64.ofNat_toNat]

/-- A value of the next interval. -/
theorem Counts.addSample_next (h : s.Counts k value) {nowMs : UInt64}
    (hle : s.calculationStartMs ≤ nowMs) (hk : s.interval nowMs = k + 1) (hv : value (k + 1) = 0)
    (v : UInt64) :
    (s.addSample nowMs v).Counts (k + 1) (Function.update value (k + 1) (value (k + 1) + v)) ∧
      (s.addSample nowMs v).EndsWith (k + 1) := by
  have hcorr := getIntervalForTimeMs_toNat s (by have := h.two_le; omega) hle
  rw [hk] at hcorr
  have hne : (s.getIntervalForTimeMs nowMs).toUInt64 ≠ s.currentInterval := by
    intro heq
    rw [heq, h.current] at hcorr
    exact mod_ne_mod (Nat.lt_succ_self k) (by have := h.two_le; omega) hcorr
  obtain ⟨hcounts, hend⟩ := h.startInterval hv hcorr
  rw [addSample, if_pos hne]
  exact ⟨hcounts.addValue v, hend⟩

theorem addSample_frame (s : MovingIntervalRateStat) (nowMs v : UInt64) :
    (s.addSample nowMs v).intervalSizeMs = s.intervalSizeMs ∧
      (s.addSample nowMs v).intervalsInWindow = s.intervalsInWindow ∧
      (s.addSample nowMs v).calculationStartMs = s.calculationStartMs := by
  rw [addSample]
  split_ifs <;> exact ⟨rfl, rfl, rfl⟩

/-- The difference to a window's end `restMs` ahead is a large number, as it has no sign;
what is left of it in thirty-two bits is not positive. -/
def Narrows (sizeMs restMs : ℕ) : Prop :=
  (18446744073709551616 - restMs) / sizeMs % 4294967296 = 0 ∨
    2147483648 ≤ (18446744073709551616 - restMs) / sizeMs % 4294967296

instance (sizeMs restMs : ℕ) : Decidable (Narrows sizeMs restMs) :=
  inferInstanceAs (Decidable (_ ∨ _))

/-- The time comes soon enough after the interval `k`. -/
def Soon (s : MovingIntervalRateStat) (k : ℕ) (nowMs : UInt64) : Prop :=
  if s.interval nowMs = k then
    Narrows s.intervalSizeMs.toNat
      (s.calculationStartMs.toNat + (k + 1) * s.intervalSizeMs.toNat - nowMs.toNat)
  else s.interval nowMs ≤ k + s.intervalsInWindow.toNat ∧ s.interval nowMs ≤ k + 2147483648

/-- In the interval of the window's end nothing is passed. -/
theorem intervalsToPass_same (hend : s.EndsWith k) (hsize : 0 < s.intervalSizeMs.toNat)
    {nowMs : UInt64} (hle : s.calculationStartMs ≤ nowMs) (hk : s.interval nowMs = k)
    (hsoon : s.Soon k nowMs) : ¬ s.intervalsToPass nowMs > 0 := by
  rw [Soon, if_pos hk] at hsoon
  have hstart : s.calculationStartMs.toNat ≤ nowMs.toNat := UInt64.le_iff_toNat_le.mp hle
  have hlow : k * s.intervalSizeMs.toNat ≤ nowMs.toNat - s.calculationStartMs.toNat := by
    rw [← hk]
    exact Nat.div_mul_le_self _ _
  have hhigh : nowMs.toNat - s.calculationStartMs.toNat < (k + 1) * s.intervalSizeMs.toNat := by
    rw [← hk, mul_comm]
    exact Nat.lt_mul_div_succ _ hsize
  have hnow := nowMs.toNat_lt
  have hsz := s.intervalSizeMs.toNat_lt
  have hdiff : (nowMs - s.currentWindowEndMs).toNat = 18446744073709551616 -
      (s.calculationStartMs.toNat + (k + 1) * s.intervalSizeMs.toNat - nowMs.toNat) := by
    rw [hend, UInt64.toNat_sub, UInt64.toNat_ofNat']
    rw [Nat.succ_mul] at hhigh ⊢
    omega
  rw [intervalsToPass, toInt32_pos_iff, UInt64.toNat_div, hdiff]
  rcases hsoon with h | h <;> omega

/-- Before a later interval those between are passed. -/
theorem intervalsToPass_later (hend : s.EndsWith k) (hsize : 0 < s.intervalSizeMs.toNat)
    {nowMs : UInt64} (hle : s.calculationStartMs ≤ nowMs) (hk : k < s.interval nowMs) :
    ((nowMs - s.currentWindowEndMs) / s.intervalSizeMs).toNat = s.interval nowMs - (k + 1) := by
  have hstart : s.calculationStartMs.toNat ≤ nowMs.toNat := UInt64.le_iff_toNat_le.mp hle
  have hlow : (k + 1) * s.intervalSizeMs.toNat ≤ nowMs.toNat - s.calculationStartMs.toNat :=
    (Nat.le_div_iff_mul_le hsize).mp hk
  have hnow := nowMs.toNat_lt
  have hdiff : (nowMs - s.currentWindowEndMs).toNat =
      nowMs.toNat - s.calculationStartMs.toNat - s.intervalSizeMs.toNat * (k + 1) := by
    rw [hend, UInt64.toNat_sub, UInt64.toNat_ofNat', mul_comm s.intervalSizeMs.toNat]
    omega
  rw [UInt64.toNat_div, hdiff, Nat.sub_mul_div, interval]

/-- The path of `add` where the value is in the interval of the window's end or one soon after it:
all intervals between are passed. -/
theorem Counts.add_cases (h : s.Counts k value) (hend : s.EndsWith k)
    (hsize : 0 < s.intervalSizeMs.toNat) {nowMs : UInt64} (hle : s.calculationStartMs ≤ nowMs)
    (hk : k ≤ s.interval nowMs) (hsoon : s.Soon k nowMs) (v : UInt64) :
    (s.interval nowMs = k ∧ s.add nowMs v = s.addSample nowMs v) ∨
      ∃ m, s.interval nowMs = k + m + 1 ∧
        s.add nowMs v = (MovingIntervalRateStat.passInterval^[m] s).addSample nowMs v := by
  have hfirst : s.firstAdd nowMs = s := if_pos h.initialized
  simp only [MovingIntervalRateStat.add, hfirst]
  rcases Nat.eq_or_lt_of_le hk with heq | hlt
  · left
    rw [if_neg (intervalsToPass_same hend hsize hle heq.symm hsoon)]
    exact ⟨heq.symm, rfl⟩
  · rw [Soon, if_neg hlt.ne'] at hsoon
    have hpass := intervalsToPass_later hend hsize hle hlt
    have hn := s.intervalsInWindow.toNat_lt
    obtain ⟨m, hm⟩ : ∃ m, s.interval nowMs = k + m + 1 := ⟨s.interval nowMs - (k + 1), by omega⟩
    have hto : (s.intervalsToPass nowMs).toUInt32.toNat = m := by
      rw [intervalsToPass, UInt32.toUInt32_toInt32, UInt64.toNat_toUInt32, hpass]
      omega
    have hsame : (if s.intervalsToPass nowMs > 0 then
        (MovingIntervalRateStat.passInterval^[m] s).addSample nowMs v
        else s.addSample nowMs v) = (MovingIntervalRateStat.passInterval^[m] s).addSample nowMs v := by
      split_ifs with hpos
      · rfl
      · rw [intervalsToPass, toInt32_pos_iff, hpass] at hpos
        obtain rfl : m = 0 := by omega
        rfl
    have hless : ¬ (s.intervalsToPass nowMs).toUInt32 ≥ s.intervalsInWindow := by
      rw [ge_iff_le, UInt32.le_iff_toNat_le, hto]
      omega
    right
    rw [if_neg hless, hto, hsame]
    exact ⟨m, hm, rfl⟩

/-- What `add` does where the value is in the interval of the window's end or one
soon after it. -/
theorem Counts.add (h : s.Counts k value) (hend : s.EndsWith k)
    (hsize : 0 < s.intervalSizeMs.toNat) {nowMs : UInt64} (hle : s.calculationStartMs ≤ nowMs)
    (hk : k ≤ s.interval nowMs) (hsoon : s.Soon k nowMs) (hv : ∀ j, k < j → value j = 0)
    (v : UInt64) :
    (s.add nowMs v).Counts (s.interval nowMs)
        (Function.update value (s.interval nowMs) (value (s.interval nowMs) + v)) ∧
      (s.add nowMs v).EndsWith (s.interval nowMs) := by
  rcases h.add_cases hend hsize hle hk hsoon v with ⟨heq, hadd⟩ | ⟨m, hm, hadd⟩
  · rw [hadd, heq]
    exact h.addSample_same hend hle heq v
  · have hpassed := h.passIntervals m fun j hj _ => hv j hj
    obtain ⟨hsz, hw, hst⟩ := passIntervals_frame s m
    rw [hadd, hm]
    refine hpassed.addSample_next ?_ ?_ (hv _ (by omega)) v
    · rwa [hst]
    · rw [interval, hsz, hst]
      exact hm

end MovingIntervalRateStat

/-! ### Adds, in the order of time -/

namespace MovingIntervalRateStat

variable (sizeMs : ℕ) (adds : List (UInt64 × UInt64))

/-- The statistic after the adds, each with its time. -/
def afterAdds (intervalSizeMs : UInt64) (intervals : UInt32) (adds : List (UInt64 × UInt64)) :
    MovingIntervalRateStat :=
  adds.foldl (fun s a => s.add a.1 a.2) (new intervalSizeMs intervals)

/-- The time of the first add. -/
def startMs : ℕ := adds.head?.elim 0 fun a => a.1.toNat

/-- The interval of a time, counted from the first add. -/
def intervalOf (timeMs : UInt64) : ℕ := (timeMs.toNat - startMs adds) / sizeMs

/-- The sum of what was added in the interval `j`. -/
def sumOf (j : ℕ) : UInt64 :=
  (adds.filter fun a => intervalOf sizeMs adds a.1 = j).foldl (fun sum a => sum + a.2) 0

/-- The buckets of the last intervals up to that of the last add, and the end of the
window. -/
def RingHolds (intervals : ℕ) (s : MovingIntervalRateStat) : Prop :=
  ∀ last ∈ adds.getLast?,
    (∀ j ≤ intervalOf sizeMs adds last.1, intervalOf sizeMs adds last.1 < j + intervals →
      s.sampleVector[j % intervals]? = some (sumOf sizeMs adds j)) ∧
    s.currentWindowEndMs =
      .ofNat (startMs adds + (intervalOf sizeMs adds last.1 + 1) * sizeMs)

/-- The times do not decrease. -/
def Ordered : Prop := adds.Pairwise fun a b => a.1 ≤ b.1

instance : Decidable (Ordered adds) := inferInstanceAs (Decidable (adds.Pairwise _))

/-- The time comes soon enough after the last one, counted from the start. -/
def SoonAfter (intervals startMs : ℕ) (a b : UInt64 × UInt64) : Prop :=
  let k := (a.1.toNat - startMs) / sizeMs
  let k' := (b.1.toNat - startMs) / sizeMs
  if k' = k then Narrows sizeMs (startMs + (k + 1) * sizeMs - b.1.toNat)
  else k' ≤ k + intervals ∧ k' ≤ k + 2147483648

instance (intervals startMs : ℕ) (a b : UInt64 × UInt64) :
    Decidable (SoonAfter sizeMs intervals startMs a b) :=
  inferInstanceAs (Decidable
    (if (b.1.toNat - startMs) / sizeMs = (a.1.toNat - startMs) / sizeMs then _ else _ ∧ _))

/-- Every time comes soon enough after the one before it. -/
def Fits (intervals : ℕ) : Prop :=
  Narrows sizeMs sizeMs ∧ adds.IsChain (SoonAfter sizeMs intervals (startMs adds))

instance (intervals : ℕ) : Decidable (Fits sizeMs adds intervals) :=
  inferInstanceAs (Decidable (_ ∧ _))

open RecentRing

variable {sizeMs adds}

theorem intervalOf_append {first : UInt64 × UInt64} {l : List (UInt64 × UInt64)}
    (m : List (UInt64 × UInt64)) :
    intervalOf sizeMs (first :: l ++ m) = intervalOf sizeMs (first :: l) := rfl

theorem sumOf_append (first : UInt64 × UInt64) (l : List (UInt64 × UInt64)) (a : UInt64 × UInt64) :
    sumOf sizeMs (first :: l ++ [a]) = Function.update (sumOf sizeMs (first :: l))
      (intervalOf sizeMs (first :: l) a.1)
      (sumOf sizeMs (first :: l) (intervalOf sizeMs (first :: l) a.1) + a.2) := by
  funext j
  rw [sumOf, intervalOf_append, List.filter_append, List.foldl_append]
  by_cases hj : intervalOf sizeMs (first :: l) a.1 = j
  · subst hj
    rw [Function.update_self]
    simp [sumOf]
  · rw [Function.update_of_ne (Ne.symm hj)]
    simp [sumOf, hj]

theorem intervalOf_first (a : UInt64 × UInt64) : intervalOf sizeMs [a] a.1 = 0 := by
  rw [intervalOf, startMs, List.head?_cons, Option.elim_some, Nat.sub_self, Nat.zero_div]

theorem sumOf_first (a : UInt64 × UInt64) :
    sumOf sizeMs [a] = Function.update (fun _ => 0) 0 (0 + a.2) := by
  funext j
  by_cases hj : j = 0
  · subst hj
    simp [sumOf, intervalOf_first]
  · rw [Function.update_of_ne hj]
    simp [sumOf, intervalOf_first, Ne.symm hj]

theorem Ordered.le_last (h : Ordered adds) {last : UInt64 × UInt64}
    (hlast : last ∈ adds.getLast?) : ∀ a ∈ adds, a.1 ≤ last.1 := by
  obtain ⟨l, rfl⟩ := List.getLast?_eq_some_iff.mp hlast
  intro a ha
  rcases List.mem_append.mp ha with ha | ha
  · exact (List.pairwise_append.mp h).2.2 a ha _ (List.mem_singleton_self last)
  · rw [List.mem_singleton.mp ha]
    exact UInt64.le_refl _

/-- Nothing is added after the last interval. -/
theorem sumOf_eq_zero {last : UInt64 × UInt64} (h : ∀ a ∈ adds, a.1 ≤ last.1) {j : ℕ}
    (hj : intervalOf sizeMs adds last.1 < j) : sumOf sizeMs adds j = 0 := by
  have hnil : (adds.filter fun a => intervalOf sizeMs adds a.1 = j) = [] := by
    refine List.filter_eq_nil_iff.mpr fun a ha heq => ?_
    have hle : a.1.toNat ≤ last.1.toNat := UInt64.le_iff_toNat_le.mp (h a ha)
    have hint : intervalOf sizeMs adds a.1 ≤ intervalOf sizeMs adds last.1 :=
      Nat.div_le_div_right (Nat.sub_le_sub_right hle _)
    have := of_decide_eq_true heq
    omega
  rw [sumOf, hnil]
  rfl

/-- The statistic counts the adds up to the last one. -/
structure Tracks (intervalSizeMs : UInt64) (intervals : UInt32)
    (first : UInt64 × UInt64) (l : List (UInt64 × UInt64)) (last : UInt64 × UInt64)
    (s : MovingIntervalRateStat) : Prop where
  size : s.intervalSizeMs = intervalSizeMs
  window : s.intervalsInWindow = intervals
  start : s.calculationStartMs = first.1
  counts : s.Counts (s.interval last.1) (sumOf intervalSizeMs.toNat (first :: l))
  ends : s.EndsWith (s.interval last.1)

theorem firstAdd_initialized (s : MovingIntervalRateStat) (nowMs : UInt64) :
    (s.firstAdd nowMs).initialized = true := by
  rw [firstAdd]
  split_ifs with h
  · exact h
  · rfl

theorem add_firstAdd (s : MovingIntervalRateStat) (nowMs v : UInt64) :
    (s.firstAdd nowMs).add nowMs v = s.add nowMs v := by
  have hidem : (s.firstAdd nowMs).firstAdd nowMs = s.firstAdd nowMs :=
    if_pos (firstAdd_initialized s nowMs)
  simp only [add, hidem]

theorem add_frame (s : MovingIntervalRateStat) (nowMs v : UInt64) :
    (s.add nowMs v).intervalSizeMs = (s.firstAdd nowMs).intervalSizeMs ∧
      (s.add nowMs v).intervalsInWindow = (s.firstAdd nowMs).intervalsInWindow ∧
      (s.add nowMs v).calculationStartMs = (s.firstAdd nowMs).calculationStartMs := by
  simp only [add]
  split_ifs
  · exact ⟨rfl, rfl, rfl⟩
  · obtain ⟨hsz, hw, hst⟩ := addSample_frame
      (passInterval^[((s.firstAdd nowMs).intervalsToPass nowMs).toUInt32.toNat] (s.firstAdd nowMs))
      nowMs v
    obtain ⟨hsz', hw', hst'⟩ := passIntervals_frame (s.firstAdd nowMs)
      ((s.firstAdd nowMs).intervalsToPass nowMs).toUInt32.toNat
    exact ⟨hsz.trans hsz', hw.trans hw', hst.trans hst'⟩
  · exact addSample_frame _ nowMs v

theorem add_interval (s : MovingIntervalRateStat) (nowMs v t : UInt64) :
    (s.add nowMs v).interval t = (s.firstAdd nowMs).interval t := by
  obtain ⟨hsz, -, hst⟩ := add_frame s nowMs v
  rw [interval, interval, hsz, hst]

/-- The first add finds a window of one interval with nothing in it. -/
theorem firstAdd_counts (intervalSizeMs : UInt64) {intervals : UInt32} (hn : 2 ≤ intervals.toNat)
    (nowMs : UInt64) :
    ((new intervalSizeMs intervals).firstAdd nowMs).Counts 0 (fun _ => 0) ∧
      ((new intervalSizeMs intervals).firstAdd nowMs).EndsWith 0 := by
  refine ⟨⟨hn, rfl, Holds.replicate (Nat.zero_lt_of_lt hn) fun _ _ => rfl, ?_, rfl⟩, ?_⟩
  · exact (Nat.zero_mod _).symm
  · show nowMs + 1 * intervalSizeMs = .ofNat (nowMs.toNat + (0 + 1) * intervalSizeMs.toNat)
    rw [UInt64.ofNat_add, UInt64.ofNat_mul, UInt64.ofNat_toNat, UInt64.ofNat_toNat]
    rfl

section Run

variable {intervalSizeMs : UInt64} {intervals : UInt32} {first : UInt64 × UInt64}
  {l : List (UInt64 × UInt64)} {last : UInt64 × UInt64} {s : MovingIntervalRateStat}

theorem Tracks.interval_eq (h : Tracks intervalSizeMs intervals first l last s) :
    s.interval = intervalOf intervalSizeMs.toNat (first :: l) := by
  funext t
  rw [interval, h.size, h.start]
  rfl

theorem soon_firstAdd (hnarrow : Narrows intervalSizeMs.toNat intervalSizeMs.toNat)
    (intervals : UInt32) (t : UInt64) :
    ((new intervalSizeMs intervals).firstAdd t).interval t = 0 ∧
      ((new intervalSizeMs intervals).firstAdd t).Soon 0 t := by
  have hzero : ((new intervalSizeMs intervals).firstAdd t).interval t = 0 := intervalOf_first (t, 0)
  refine ⟨hzero, ?_⟩
  rw [Soon, if_pos hzero]
  show Narrows intervalSizeMs.toNat (t.toNat + (0 + 1) * intervalSizeMs.toNat - t.toNat)
  rwa [Nat.zero_add, Nat.one_mul, Nat.add_sub_cancel_left]

theorem tracks_first (hn : 2 ≤ intervals.toNat) (hsize : 0 < intervalSizeMs.toNat)
    (hnarrow : Narrows intervalSizeMs.toNat intervalSizeMs.toNat) (a : UInt64 × UInt64) :
    Tracks intervalSizeMs intervals a [] a ((new intervalSizeMs intervals).add a.1 a.2) := by
  obtain ⟨hcounts, hends⟩ := firstAdd_counts intervalSizeMs hn a.1
  obtain ⟨hsz, hw, hst⟩ := add_frame (new intervalSizeMs intervals) a.1 a.2
  obtain ⟨hzero, hsoon⟩ := soon_firstAdd hnarrow intervals a.1
  obtain ⟨hcounts', hends'⟩ := hcounts.add hends hsize (UInt64.le_refl a.1) (Nat.zero_le _) hsoon
    (fun _ _ => rfl) a.2
  rw [hzero, add_firstAdd] at hcounts' hends'
  have hint := (add_interval (new intervalSizeMs intervals) a.1 a.2 a.1).trans hzero
  exact ⟨hsz, hw, hst, by rwa [hint, sumOf_first], by rwa [hint]⟩

/-- The next add comes in the order of time, and soon enough after the interval of the last one. -/
theorem Tracks.soon (h : Tracks intervalSizeMs intervals first l last s) {a : UInt64 × UInt64}
    (hlast : ∀ x ∈ first :: l, x.1 ≤ last.1) (hle : last.1 ≤ a.1)
    (hsoon : SoonAfter intervalSizeMs.toNat intervals.toNat first.1.toNat last a) :
    s.calculationStartMs ≤ a.1 ∧ s.interval last.1 ≤ s.interval a.1 ∧
      s.Soon (s.interval last.1) a.1 := by
  refine ⟨?_, Nat.div_le_div_right (Nat.sub_le_sub_right (UInt64.le_iff_toNat_le.mp hle) _), ?_⟩
  · rw [h.start]
    exact UInt64.le_trans (hlast first (List.mem_cons_self ..)) hle
  · rw [Soon, interval, interval, h.size, h.start, h.window]
    exact hsoon

theorem Tracks.next (h : Tracks intervalSizeMs intervals first l last s)
    (hsize : 0 < intervalSizeMs.toNat) {a : UInt64 × UInt64}
    (hlast : ∀ x ∈ first :: l, x.1 ≤ last.1) (hle : last.1 ≤ a.1)
    (hsoon : SoonAfter intervalSizeMs.toNat intervals.toNat first.1.toNat last a) :
    Tracks intervalSizeMs intervals first (l ++ [a]) a (s.add a.1 a.2) := by
  have hinit : s.firstAdd a.1 = s := if_pos h.counts.initialized
  obtain ⟨hsz, hw, hst⟩ := add_frame s a.1 a.2
  rw [hinit] at hsz hw hst
  obtain ⟨hstart, hk, hsoon'⟩ := h.soon hlast hle hsoon
  have hzero : ∀ j, s.interval last.1 < j → sumOf intervalSizeMs.toNat (first :: l) j = 0 := by
    intro j hj
    rw [h.interval_eq] at hj
    exact sumOf_eq_zero hlast hj
  obtain ⟨hcounts, hends⟩ := h.counts.add h.ends (by rwa [h.size]) hstart hk hsoon' hzero a.2
  have hint := add_interval s a.1 a.2 a.1
  rw [hinit] at hint
  refine ⟨hsz.trans h.size, hw.trans h.window, hst.trans h.start, ?_, by rwa [hint]⟩
  rw [hint, ← List.cons_append, sumOf_append, ← h.interval_eq]
  exact hcounts

theorem tracks_afterAdds (hn : 2 ≤ intervals.toNat) (hsize : 0 < intervalSizeMs.toNat)
    (first : UInt64 × UInt64) (l : List (UInt64 × UInt64)) (hord : Ordered (first :: l))
    (hfits : Fits intervalSizeMs.toNat (first :: l) intervals.toNat) :
    ∀ last ∈ (first :: l).getLast?,
      Tracks intervalSizeMs intervals first l last
        (afterAdds intervalSizeMs intervals (first :: l)) := by
  induction l using List.reverseRecOn with
  | nil =>
    rintro last ⟨⟩
    exact tracks_first hn hsize hfits.1 first
  | append_singleton l a ih =>
    rw [← List.cons_append] at hord hfits ⊢
    obtain ⟨hl : Ordered _, -, ha⟩ := List.pairwise_append.mp hord
    obtain ⟨hchain, -, hsoon⟩ := List.isChain_append.mp hfits.2
    obtain ⟨last, hmem⟩ : ∃ last, last ∈ (first :: l).getLast? :=
      ⟨_, List.getLast?_eq_some_getLast (List.cons_ne_nil first l)⟩
    have htracks := ih hl ⟨hfits.1, hchain⟩ last hmem
    intro last' hlast'
    rw [List.getLast?_concat] at hlast'
    cases hlast'
    rw [afterAdds, List.foldl_append]
    exact htracks.next hsize (hl.le_last hmem) (ha _ (List.mem_of_getLast? hmem) _ (List.mem_singleton_self a))
      (hsoon _ hmem _ rfl)

/-- After adds that come soon enough one after the other every bucket of the window has
the sum of its interval. -/
theorem ringHolds_of_fits (intervalSizeMs : UInt64) (intervals : UInt32)
    (hsize : 0 < intervalSizeMs.toNat) (hn : 2 ≤ intervals.toNat) (adds : List (UInt64 × UInt64))
    (hord : Ordered adds) (hfits : Fits intervalSizeMs.toNat adds intervals.toNat) :
    RingHolds intervalSizeMs.toNat adds intervals.toNat
      (afterAdds intervalSizeMs intervals adds) := by
  cases adds with
  | nil => exact fun _ h => nomatch h
  | cons first l =>
    intro last hlast
    have h := tracks_afterAdds hn hsize first l hord hfits last hlast
    have hint := congrFun h.interval_eq last.1
    rw [← hint]
    refine ⟨fun j hj hjn => ?_, ?_⟩
    · have hcell := h.counts.ring.cell j hj (by rwa [h.window])
      rwa [h.window] at hcell
    · rw [h.ends, h.start, h.size]
      rfl

/-- The first intervals of a window of five. -/
theorem ringHolds_of_fits_short :
    RingHolds 100 [(7, 4), (90, 2), (107, 3), (400, 5)] 5
      (afterAdds 100 5 [(7, 4), (90, 2), (107, 3), (400, 5)]) :=
  ringHolds_of_fits 100 5 (by decide) (by decide) _ (by decide) (by decide)

/-- After a gap as long as the window the window ends an interval too early. With an
interval of three milliseconds it ends far too late from the first add on. -/
theorem ringHolds_fails_gap_size :
    (Ordered [(0, 1), (1000, 1)] ∧
      ¬ RingHolds 100 [(0, 1), (1000, 1)] 5 (afterAdds 100 5 [(0, 1), (1000, 1)])) ∧
    ¬ RingHolds 3 [(0, 1)] 5 (afterAdds 3 5 [(0, 1)]) := by
  refine ⟨⟨by decide, fun h => ?_⟩, fun h => ?_⟩
  · exact absurd (h (1000, 1) rfl).2 (by decide)
  · exact absurd (h (0, 1) rfl).2 (by decide)

end Run

end MovingIntervalRateStat

end KkLicode.Stats
