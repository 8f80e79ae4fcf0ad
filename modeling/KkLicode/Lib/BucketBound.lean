import Mathlib.Algebra.Order.Field.Rat
import Mathlib.Data.Rat.Cast.Order
import Mathlib.Tactic.FieldSimp
import Mathlib.Tactic.Linarith
import Mathlib.Tactic.Ring
import KkLicode.Lib.TokenBucket

/-! How much a bucket admits in an interval of time. The time of the bucket advances by the
time of every token, from at least a burst before the attempt, and it never passes the
clock: so the tokens of an interval take no longer than the interval and a burst. This is
so as long as the clock does not begin within a burst of zero, and it is the rate that was
asked for only if the time per token is exact. -/

namespace KkLicode.Lib

structure Attempt where
  now : UInt64
  tokens : UInt64

namespace TokenBucket

/-- The tokens that are admitted in the time between `start` and `stop`. -/
def admitted (start stop : ℕ) : TokenBucket → List Attempt → ℕ
  | _, [] => 0
  | b, a :: attempts =>
    let (b', ok) := b.consume a.now a.tokens
    (if ok ∧ start ≤ a.now.toNat ∧ a.now.toNat ≤ stop then a.tokens.toNat else 0) +
      admitted start stop b' attempts

/-- Attempts in order from a time on, of limited sizes, while the clock has a sign bit. -/
structure Schedule (limit first : ℕ) (attempts : List Attempt) : Prop where
  ordered : attempts.Pairwise fun a a' => a.now ≤ a'.now
  after : ∀ a ∈ attempts, first ≤ a.now.toNat
  clock : ∀ a ∈ attempts, a.now.toNat < 2 ^ 63
  size : ∀ a ∈ attempts, a.tokens.toNat ≤ limit

/-- What is admitted in any interval is at most the burst and what the rate, in tokens per
second, allows for the interval. -/
def Bounded (b : TokenBucket) (burstSize : ℕ) (rate : ℚ) (limit first : ℕ) : Prop :=
  ∀ attempts, Schedule limit first attempts → ∀ start stop : ℕ, start ≤ stop →
    (admitted start stop b attempts : ℚ) ≤ burstSize + rate * ((stop - start : ℕ) / 10 ^ 6)

variable {b b' : TokenBucket} {a : Attempt} {attempts : List Attempt}
  {start stop limit first k n : ℕ} {now tokens : UInt64}

theorem admitted_cons (start stop : ℕ) (b : TokenBucket) (a : Attempt) (attempts : List Attempt) :
    admitted start stop b (a :: attempts) =
      (if (b.consume a.now a.tokens).2 ∧ start ≤ a.now.toNat ∧ a.now.toNat ≤ stop then
        a.tokens.toNat else 0) + admitted start stop (b.consume a.now a.tokens).1 attempts := rfl

/-! ### One attempt -/

/-- Behind the first burst of the clock nothing wraps. -/
theorem consume_eq (hburst : b.timePerBurst.toNat ≤ now.toNat) (htime : b.time.toNat ≤ now.toNat)
    (hclock : now.toNat < 2 ^ 63) (hneeded : tokens.toNat * b.timePerToken.toNat < 2 ^ 63) :
    b.consume now tokens =
      if max b.time.toNat (now.toNat - b.timePerBurst.toNat) +
          tokens.toNat * b.timePerToken.toNat ≤ now.toNat then
        ({ b with time := .ofNat (max b.time.toNat (now.toNat - b.timePerBurst.toNat) +
            tokens.toNat * b.timePerToken.toNat) }, true)
      else (b, false) := by
  have hmul : (tokens * b.timePerToken).toNat = tokens.toNat * b.timePerToken.toNat := by
    rw [UInt64.toNat_mul, Nat.mod_eq_of_lt (by omega)]
  have hsub : (now - b.timePerBurst).toNat = now.toNat - b.timePerBurst.toNat :=
    UInt64.toNat_sub_of_le _ _ (UInt64.le_iff_toNat_le.mpr hburst)
  have hmax : (if now - b.timePerBurst > b.time then now - b.timePerBurst else b.time).toNat =
      max b.time.toNat (now.toNat - b.timePerBurst.toNat) := by
    split_ifs with hgt
    · rw [hsub, max_eq_right]
      rw [← hsub]
      exact (UInt64.lt_iff_toNat_lt.mp hgt).le
    · rw [max_eq_left]
      rw [← hsub]
      exact UInt64.le_iff_toNat_le.mp (UInt64.not_lt.mp hgt)
  have hnew : ((if now - b.timePerBurst > b.time then now - b.timePerBurst else b.time) +
      tokens * b.timePerToken).toNat = max b.time.toNat (now.toNat - b.timePerBurst.toNat) +
        tokens.toNat * b.timePerToken.toNat := by
    rw [UInt64.toNat_add, hmax, hmul, Nat.mod_eq_of_lt (by omega)]
  rw [consume, ← hnew]
  generalize (if now - b.timePerBurst > b.time then now - b.timePerBurst else b.time) +
    tokens * b.timePerToken = newTime
  by_cases hle : newTime.toNat ≤ now.toNat
  · rw [if_pos hle, if_neg (UInt64.not_lt.mpr (UInt64.le_iff_toNat_le.mpr hle)), UInt64.ofNat_toNat]
  · rw [if_neg hle, if_pos (UInt64.lt_iff_toNat_lt.mpr (Nat.not_le.mp hle))]

/-- Within the first burst of the clock the time of the attempt wraps, and it wraps back if the
tokens take long enough. -/
theorem consume_wrapped (hfirst : now.toNat < b.timePerBurst.toNat)
    (hneeded : tokens.toNat * b.timePerToken.toNat ≤ b.timePerBurst.toNat)
    (hback : b.timePerBurst.toNat ≤ now.toNat + tokens.toNat * b.timePerToken.toNat)
    (hburst : b.timePerBurst.toNat < 2 ^ 63) (htime : b.time.toNat < 2 ^ 63) :
    b.consume now tokens = ({ b with
      time := .ofNat (now.toNat + tokens.toNat * b.timePerToken.toNat - b.timePerBurst.toNat) },
        true) := by
  have hmul : (tokens * b.timePerToken).toNat = tokens.toNat * b.timePerToken.toNat := by
    rw [UInt64.toNat_mul, Nat.mod_eq_of_lt (by omega)]
  have hsub : (now - b.timePerBurst).toNat = 2 ^ 64 - b.timePerBurst.toNat + now.toNat := by
    rw [UInt64.toNat_sub, Nat.mod_eq_of_lt (by omega)]
  have hgt : now - b.timePerBurst > b.time := by
    show b.time < _
    rw [UInt64.lt_iff_toNat_lt, hsub]
    omega
  have hnew : (now - b.timePerBurst + tokens * b.timePerToken).toNat =
      now.toNat + tokens.toNat * b.timePerToken.toNat - b.timePerBurst.toNat := by
    rw [UInt64.toNat_add, hsub, hmul]
    omega
  have hle : ¬now - b.timePerBurst + tokens * b.timePerToken > now := by
    show ¬now < _
    rw [UInt64.lt_iff_toNat_lt, hnew]
    omega
  rw [consume]
  rw [if_pos hgt, if_neg hle, ← hnew, UInt64.ofNat_toNat]

/-! ### The bound -/

theorem Schedule.tail (h : Schedule limit first (a :: attempts)) : Schedule limit first attempts :=
  ⟨(List.pairwise_cons.mp h.ordered).2, fun x hx => h.after x (List.mem_cons_of_mem _ hx),
    fun x hx => h.clock x (List.mem_cons_of_mem _ hx), fun x hx => h.size x (List.mem_cons_of_mem _ hx)⟩

/-- The tokens of the interval take the time from the time of the bucket, or from a burst before
the interval, to its end. -/
theorem admitted_le (hs : Schedule limit first attempts) (hburst : b.timePerBurst.toNat ≤ first)
    (hneeded : limit * b.timePerToken.toNat < 2 ^ 63)
    (htime : ∀ a ∈ attempts, b.time.toNat ≤ a.now.toNat) :
    admitted start stop b attempts = 0 ∨
      admitted start stop b attempts * b.timePerToken.toNat +
        max b.time.toNat (start - b.timePerBurst.toNat) ≤ stop := by
  induction attempts generalizing b with
  | nil => exact .inl rfl
  | cons a attempts ih =>
    have hordered := (List.pairwise_cons.mp hs.ordered).1
    have hafter := hs.after a List.mem_cons_self
    have hclock := hs.clock a List.mem_cons_self
    have hnow := htime a List.mem_cons_self
    have htokens : a.tokens.toNat * b.timePerToken.toNat < 2 ^ 63 :=
      (Nat.mul_le_mul_right _ (hs.size a List.mem_cons_self)).trans_lt hneeded
    have hlater : ∀ x ∈ attempts, a.now.toNat ≤ x.now.toNat := fun x hx =>
      UInt64.le_iff_toNat_le.mp (hordered x hx)
    rw [admitted_cons, consume_eq (hburst.trans hafter) hnow hclock htokens]
    generalize hnew : max b.time.toNat (a.now.toNat - b.timePerBurst.toNat) +
      a.tokens.toNat * b.timePerToken.toNat = new
    by_cases hle : new ≤ a.now.toNat
    · have hnat : (UInt64.ofNat new).toNat = new := by
        rw [UInt64.toNat_ofNat', Nat.mod_eq_of_lt (by omega)]
      have hrest := @ih { b with time := .ofNat new } hs.tail hburst hneeded fun x hx => by
        rw [hnat]
        exact hle.trans (hlater x hx)
      dsimp only at hrest
      rw [hnat] at hrest
      rw [if_pos hle]
      dsimp only
      generalize admitted start stop _ attempts = rest at hrest ⊢
      split_ifs with hin
      · rw [Nat.add_mul]
        rcases hrest with hzero | hrest
        · rw [hzero]
          omega
        · omega
      · rw [Nat.zero_add]
        exact hrest.imp_right fun hrest => by omega
    · rw [if_neg hle, if_neg fun h => Bool.false_ne_true h.1, Nat.zero_add]
      exact ih hs.tail hburst hneeded fun x hx => hnow.trans (hlater x hx)

/-! ### Too many tokens -/

/-- From time 0 on a burst of single tokens is admitted at once. -/
theorem admitted_replicate {now : UInt64} {i : ℕ} (hburst : b.timePerBurst.toNat ≤ now.toNat)
    (hclock : now.toNat < 2 ^ 63) (hin : start ≤ now.toNat ∧ now.toNat ≤ stop)
    (htime : b.time.toNat ≤ now.toNat - b.timePerBurst.toNat + i * b.timePerToken.toNat)
    (hfits : (i + n) * b.timePerToken.toNat ≤ b.timePerBurst.toNat) :
    ∃ b' : TokenBucket, b'.timePerToken = b.timePerToken ∧ b'.timePerBurst = b.timePerBurst ∧
      b'.time.toNat ≤ now.toNat - b.timePerBurst.toNat + (i + n) * b.timePerToken.toNat ∧
      ∀ rest, admitted start stop b (List.replicate n ⟨now, 1⟩ ++ rest) =
        n + admitted start stop b' rest := by
  induction n generalizing b i with
  | zero => exact ⟨b, rfl, rfl, htime, fun rest => (Nat.zero_add _).symm⟩
  | succ n ih =>
    have hone : (1 : UInt64).toNat = 1 := rfl
    have hmul : (i + (n + 1)) * b.timePerToken.toNat =
        i * b.timePerToken.toNat + n * b.timePerToken.toNat + b.timePerToken.toNat := by ring
    have hmul' : (i + 1) * b.timePerToken.toNat = i * b.timePerToken.toNat + b.timePerToken.toNat := by
      ring
    generalize hnew : max b.time.toNat (now.toNat - b.timePerBurst.toNat) + b.timePerToken.toNat = new
    have hstep : b.consume now 1 = ({ b with time := .ofNat new }, true) := by
      rw [consume_eq hburst (by omega) hclock (by rw [hone]; omega), hone, Nat.one_mul, hnew,
        if_pos (by omega)]
    have hnat : (UInt64.ofNat new).toNat = new := by
      rw [UInt64.toNat_ofNat', Nat.mod_eq_of_lt (by omega)]
    have hafter : (UInt64.ofNat new).toNat ≤
        now.toNat - b.timePerBurst.toNat + (i + 1) * b.timePerToken.toNat := by
      rw [hnat, hmul']
      omega
    obtain ⟨b', htoken, hburst', htime', hrest⟩ := @ih { b with time := .ofNat new } (i + 1) hburst
      hafter (by rwa [Nat.add_assoc, Nat.add_comm 1 n])
    refine ⟨b', htoken, hburst', by rwa [Nat.add_assoc, Nat.add_comm 1 n] at htime', fun rest => ?_⟩
    rw [List.replicate_succ, List.cons_append, admitted_cons, hstep, if_pos ⟨rfl, hin⟩, hone, hrest]
    omega

/-- Before time 0 every attempt of the same size is admitted. -/
theorem admitted_replicate_wrapped {now tokens : UInt64} (hfirst : now.toNat < b.timePerBurst.toNat)
    (hneeded : tokens.toNat * b.timePerToken.toNat ≤ b.timePerBurst.toNat)
    (hback : b.timePerBurst.toNat ≤ now.toNat + tokens.toNat * b.timePerToken.toNat)
    (hburst : b.timePerBurst.toNat < 2 ^ 63) (htime : b.time.toNat < 2 ^ 63)
    (hin : start ≤ now.toNat ∧ now.toNat ≤ stop) :
    admitted start stop b (List.replicate n ⟨now, tokens⟩) = n * tokens.toNat := by
  induction n generalizing b with
  | zero => exact (Nat.zero_mul _).symm
  | succ n ih =>
    rw [List.replicate_succ, admitted_cons, consume_wrapped hfirst hneeded hback hburst htime,
      if_pos ⟨rfl, hin⟩, Nat.add_one_mul]
    have htime' : (UInt64.ofNat (now.toNat + tokens.toNat * b.timePerToken.toNat -
        b.timePerBurst.toNat)).toNat < 2 ^ 63 := by
      rw [UInt64.toNat_ofNat', Nat.mod_eq_of_lt (by omega)]
      omega
    have hrest := @ih { b with time := .ofNat (now.toNat + tokens.toNat * b.timePerToken.toNat -
      b.timePerBurst.toNat) } hfirst hneeded hback hburst htime'
    dsimp only at hrest ⊢
    rw [hrest]
    omega

theorem schedule_replicate {now tokens : UInt64} (hfirst : first ≤ now.toNat)
    (hclock : now.toNat < 2 ^ 63) (hsize : tokens.toNat ≤ limit) :
    Schedule limit first (List.replicate n ⟨now, tokens⟩) where
  ordered := List.pairwise_replicate.mpr (.inr (UInt64.le_refl _))
  after a ha := by rwa [List.eq_of_mem_replicate ha]
  clock a ha := by rwa [List.eq_of_mem_replicate ha]
  size a ha := by rwa [List.eq_of_mem_replicate ha]

/-! ### A new bucket -/

variable {rate burstSize : UInt64}

/-- The time per token of a rate. -/
def tokenTime (rate : UInt64) : ℕ := 1000000 / max rate.toNat 1

theorem timePerToken_withRate : (withRate rate burstSize).timePerToken.toNat = tokenTime rate := by
  have hmax : (max rate 1).toNat = max rate.toNat 1 := by
    have hdef : max rate 1 = if rate ≤ 1 then 1 else rate := rfl
    rw [hdef]
    split_ifs with hle
    · exact (max_eq_right (UInt64.le_iff_toNat_le.mp hle)).symm
    · exact (max_eq_left (UInt64.le_iff_toNat_le.mp (UInt64.le_of_lt (UInt64.not_le.mp hle)))).symm
  show (1000000 / max rate 1).toNat = _
  rw [UInt64.toNat_div, hmax]
  rfl

theorem tokenTime_le (rate : UInt64) : tokenTime rate ≤ 1000000 := Nat.div_le_self _ _

theorem timePerBurst_withRate (hburst : burstSize.toNat < 2 ^ 32) :
    (withRate rate burstSize).timePerBurst.toNat = burstSize.toNat * tokenTime rate := by
  have hlt : burstSize.toNat * tokenTime rate ≤ 2 ^ 32 * 1000000 :=
    Nat.mul_le_mul hburst.le (tokenTime_le rate)
  show (burstSize * (withRate rate burstSize).timePerToken).toNat = _
  rw [UInt64.toNat_mul, timePerToken_withRate, Nat.mod_eq_of_lt (by omega)]

/-- Before time 0 more than a burst is admitted at once. -/
theorem not_bounded_of_lt {r : ℚ} (hburst : burstSize.toNat < 2 ^ 32) (hlimit : 1 ≤ limit)
    (hlimit' : limit ≤ burstSize.toNat) (hfirst : first < burstSize.toNat * tokenTime rate) :
    ¬(withRate rate burstSize).Bounded burstSize.toNat r limit first := by
  intro h
  have htime := tokenTime_le rate
  have hburstTime : (withRate rate burstSize).timePerBurst.toNat =
      burstSize.toNat * tokenTime rate := timePerBurst_withRate hburst
  have hlarge : burstSize.toNat * tokenTime rate ≤ 2 ^ 32 * 1000000 :=
    Nat.mul_le_mul hburst.le htime
  have hneeded : limit * tokenTime rate ≤ burstSize.toNat * tokenTime rate :=
    Nat.mul_le_mul_right _ hlimit'
  have hpos : 0 < limit * tokenTime rate := by
    have : tokenTime rate ≠ 0 := fun hz => by simp [hz] at hfirst
    positivity
  obtain ⟨now, hnow⟩ : ∃ now : UInt64, now.toNat =
      max first (burstSize.toNat * tokenTime rate - limit * tokenTime rate) := by
    refine ⟨.ofNat (max first (burstSize.toNat * tokenTime rate - limit * tokenTime rate)), ?_⟩
    rw [UInt64.toNat_ofNat', Nat.mod_eq_of_lt (by omega)]
  obtain ⟨tokens, htokens⟩ : ∃ tokens : UInt64, tokens.toNat = limit :=
    ⟨.ofNat limit, by rw [UInt64.toNat_ofNat', Nat.mod_eq_of_lt (by omega)]⟩
  have hzero : (withRate rate burstSize).time.toNat < 2 ^ 63 := Nat.two_pow_pos 63
  have hadmitted := h (List.replicate (burstSize.toNat / limit + 1) ⟨now, tokens⟩)
    (schedule_replicate (by omega) (by omega) htokens.le) now.toNat now.toNat le_rfl
  rw [admitted_replicate_wrapped (by rw [hburstTime]; omega)
    (by rw [hburstTime, htokens, timePerToken_withRate]; omega)
    (by rw [hburstTime, htokens, timePerToken_withRate]; omega)
    (by rw [hburstTime]; omega) hzero ⟨le_rfl, le_rfl⟩, htokens, Nat.sub_self] at hadmitted
  have hmore : burstSize.toNat < (burstSize.toNat / limit + 1) * limit := by
    rw [Nat.mul_comm]
    exact Nat.lt_mul_div_succ _ hlimit
  rw [Nat.cast_zero, zero_div, mul_zero, add_zero, Nat.cast_le] at hadmitted
  omega

/-- A burst, and the next token as soon as the bucket has it. -/
theorem rate_of_bounded {r : ℚ} (hburst : burstSize.toNat < 2 ^ 32) (hlimit : 1 ≤ limit)
    (hlimit' : limit ≤ burstSize.toNat) (hclock : first + 1000000 < 2 ^ 63)
    (hfirst : burstSize.toNat * tokenTime rate ≤ first)
    (h : (withRate rate burstSize).Bounded burstSize.toNat r limit first) :
    10 ^ 6 ≤ r * tokenTime rate := by
  have htime := tokenTime_le rate
  have hone : (1 : UInt64).toNat = 1 := rfl
  have hburstTime : (withRate rate burstSize).timePerBurst.toNat =
      burstSize.toNat * tokenTime rate := timePerBurst_withRate hburst
  have htokenTime : (withRate rate burstSize).timePerToken.toNat = tokenTime rate :=
    timePerToken_withRate
  have hsingle : tokenTime rate ≤ burstSize.toNat * tokenTime rate :=
    Nat.le_mul_of_pos_left _ (by omega)
  have hnat (k : ℕ) (hk : k < 2 ^ 63) : (UInt64.ofNat k).toNat = k := by
    rw [UInt64.toNat_ofNat', Nat.mod_eq_of_lt (by omega)]
  have hnow := hnat first (by omega)
  have hlater := hnat (first + tokenTime rate) (by omega)
  obtain ⟨b', htoken, hburst', htime', hrest⟩ := @admitted_replicate (withRate rate burstSize) first
    (first + tokenTime rate) burstSize.toNat (.ofNat first) 0 (by rw [hburstTime, hnow]; omega)
    (by omega) ⟨hnow.ge, by omega⟩ (Nat.zero_le _)
    (by rw [hburstTime, htokenTime, Nat.zero_add])
  rw [hburstTime, htokenTime, hnow, Nat.zero_add] at htime'
  have hnext : (b'.consume (.ofNat (first + tokenTime rate)) 1).2 = true := by
    rw [consume_eq (by rw [hburst', hburstTime, hlater]; omega) (by rw [hlater]; omega)
      (by rw [hlater]; omega) (by rw [htoken, htokenTime, hone]; omega), hburst', hburstTime, htoken,
      htokenTime, hlater, hone, if_pos (by omega)]
  have hschedule : Schedule limit first
      (List.replicate burstSize.toNat ⟨.ofNat first, 1⟩ ++ [⟨.ofNat (first + tokenTime rate), 1⟩]) := by
    have hfront := @schedule_replicate limit first burstSize.toNat (.ofNat first) 1 hnow.ge
      (by omega) hlimit
    have hback := @schedule_replicate limit first 1 (.ofNat (first + tokenTime rate)) 1 (by omega)
      (by omega) hlimit
    refine ⟨List.pairwise_append.mpr ⟨hfront.ordered, hback.ordered, fun a ha a' ha' => ?_⟩,
      List.forall_mem_append.mpr ⟨hfront.after, hback.after⟩,
      List.forall_mem_append.mpr ⟨hfront.clock, hback.clock⟩,
      List.forall_mem_append.mpr ⟨hfront.size, hback.size⟩⟩
    rw [List.eq_of_mem_replicate ha, List.mem_singleton.mp ha']
    show UInt64.ofNat first ≤ .ofNat (first + tokenTime rate)
    rw [UInt64.le_iff_toNat_le, hnow, hlater]
    exact Nat.le_add_right _ _
  have hin : first ≤ (UInt64.ofNat (first + tokenTime rate)).toNat ∧
      (UInt64.ofNat (first + tokenTime rate)).toNat ≤ first + tokenTime rate := by omega
  have hadmitted := h _ hschedule first (first + tokenTime rate) (Nat.le_add_right _ _)
  rw [hrest, admitted_cons, if_pos ⟨hnext, hin⟩, hone, Nat.add_sub_cancel_left] at hadmitted
  simp only [admitted] at hadmitted
  push_cast at hadmitted
  linarith

/-- A new bucket keeps to a rate if and only if the time per token is no shorter than the rate
says, and the clock does not begin within a burst. -/
theorem withRate_bounded_iff {r : ℚ} (hburst : burstSize.toNat < 2 ^ 32)
    (hlimit : 1 ≤ limit) (hlimit' : limit ≤ burstSize.toNat) (hfirst : first + 1000000 < 2 ^ 63) :
    (withRate rate burstSize).Bounded burstSize.toNat r limit first ↔
      10 ^ 6 ≤ r * tokenTime rate ∧ burstSize.toNat * tokenTime rate ≤ first := by
  constructor
  · intro h
    have hafter : burstSize.toNat * tokenTime rate ≤ first := by
      by_contra hlt
      exact not_bounded_of_lt hburst hlimit hlimit' (Nat.not_le.mp hlt) h
    exact ⟨rate_of_bounded hburst hlimit hlimit' hfirst hafter h, hafter⟩
  · rintro ⟨hrate, hafter⟩ attempts hs start stop hle
    have htime := tokenTime_le rate
    have hneeded : limit * tokenTime rate ≤ 2 ^ 32 * 1000000 :=
      Nat.mul_le_mul (hlimit'.trans hburst.le) htime
    have hpos : (0 : ℚ) < tokenTime rate := by
      rcases Nat.eq_zero_or_pos (tokenTime rate) with hz | hpos
      · norm_num [hz] at hrate
      · exact_mod_cast hpos
    have hbound := @admitted_le (withRate rate burstSize) attempts start stop limit first hs
      (by rwa [timePerBurst_withRate hburst]) (by rw [timePerToken_withRate]; omega)
      fun a _ => Nat.zero_le _
    rw [timePerBurst_withRate hburst, timePerToken_withRate] at hbound
    generalize admitted start stop (withRate rate burstSize) attempts = tokens at hbound ⊢
    -- the tokens take no longer than the interval and a burst
    have htokens : tokens * tokenTime rate ≤ stop - start + burstSize.toNat * tokenTime rate := by
      rcases hbound with rfl | hbound
      · omega
      · omega
    have hcast : (tokens * tokenTime rate : ℚ) ≤ (stop - start : ℕ) + burstSize.toNat * tokenTime rate := by
      exact_mod_cast htokens
    refine le_of_mul_le_mul_right ?_ hpos
    have hspan : (0 : ℚ) ≤ (stop - start : ℕ) / 10 ^ 6 :=
      div_nonneg (Nat.cast_nonneg _) (pow_nonneg (by norm_num) _)
    calc (tokens * tokenTime rate : ℚ)
        ≤ burstSize.toNat * tokenTime rate + 10 ^ 6 * ((stop - start : ℕ) / 10 ^ 6) := by linarith
      _ ≤ burstSize.toNat * tokenTime rate + r * tokenTime rate * ((stop - start : ℕ) / 10 ^ 6) := by
          gcongr
      _ = (burstSize.toNat + r * ((stop - start : ℕ) / 10 ^ 6)) * tokenTime rate := by ring

end TokenBucket

end KkLicode.Lib
