import KkLicode.Lib.BucketBound
import KkLicode.Rtp.PaddingBudget
import KkLicode.Rtp.RtpRetransmissionHandler

/-! The rates that the buckets of padding and of retransmissions keep to. The bucket of padding
is given bits per second for its tokens, which are bytes. The bucket of retransmissions is given
bytes per second, of which it makes whole microseconds per byte. -/

namespace KkLicode.Rtp

open Lib TokenBucket

/-- The padding bitrate that the bucket is reset with, in bits per second. -/
def RtpPaddingGeneratorHandler.bucketRate (h : RtpPaddingGeneratorHandler) (r : PaddingReading) : UInt64 :=
  .ofInt (max (h.targetPaddingBitrate r) 0)

/-- The rates are calculated anew. -/
def RtpRetransmissionHandler.Due (h : RtpRetransmissionHandler) (r : RetransmissionReading) : Prop :=
  kTimeToUpdateBitrate < r.now - h.lastBitrateTime

instance (h : RtpRetransmissionHandler) (r : RetransmissionReading) : Decidable (h.Due r) :=
  inferInstanceAs (Decidable (_ < _))

/-- No packet is longer than the memory for its data. -/
def maxPacketLength : ℕ := 1500

theorem bucket_recalculatePaddingRate {h : RtpPaddingGeneratorHandler} {r : PaddingReading}
    (hdue : h.Due r) :
    (h.recalculatePaddingRate r).bucket = withRate (h.bucketRate r) (.ofNat kPaddingBurstSize) := by
  rw [RtpPaddingGeneratorHandler.recalculatePaddingRate, if_neg (not_lt.mpr hdue)]
  dsimp only
  split_ifs <;> rfl

theorem bucket_calculateRtxBitrate {h : RtpRetransmissionHandler} {r : RetransmissionReading}
    (hdue : h.Due r) : (h.calculateRtxBitrate r).bucket = withRate r.rtxBitrate kBurstSize := by
  rw [RtpRetransmissionHandler.calculateRtxBitrate,
    if_pos (show r.now - h.lastBitrateTime > kTimeToUpdateBitrate from hdue)]

theorem rate_mul_tokenTime_le (rate : UInt64) : rate.toNat * tokenTime rate ≤ 1000000 :=
  calc rate.toNat * tokenTime rate ≤ max rate.toNat 1 * tokenTime rate :=
        Nat.mul_le_mul_right _ (Nat.le_max_left _ _)
    _ ≤ 1000000 := Nat.mul_div_le _ _

/-- Whole microseconds per byte are exact if the rate divides a second. -/
theorem le_rate_mul_tokenTime_iff (rate : UInt64) :
    (10 ^ 6 : ℚ) ≤ rate.toNat * tokenTime rate ↔ rate.toNat ∣ 1000000 := by
  have hcast : (10 ^ 6 : ℚ) ≤ rate.toNat * tokenTime rate ↔
      1000000 ≤ rate.toNat * tokenTime rate := by
    rw [← Nat.cast_mul, show (10 ^ 6 : ℚ) = (1000000 : ℕ) by norm_num, Nat.cast_le]
  rw [hcast]
  constructor
  · intro hle
    exact ⟨_, hle.antisymm (rate_mul_tokenTime_le rate)⟩
  · intro hdvd
    have hpos : 1 ≤ rate.toNat := Nat.pos_of_dvd_of_pos hdvd (by norm_num)
    rw [tokenTime, max_eq_left hpos, Nat.mul_div_cancel' hdvd]

/-- Padding is never bounded by its rate. Retransmissions are, if and only if the rate divides a
million and the clock is past the time of a burst when the first one is asked for. -/
theorem buckets_bounded_iff (first : ℕ) (hfirst : first + 1000000 < 2 ^ 63) :
    (∀ (h : RtpPaddingGeneratorHandler) (r : PaddingReading), h.Due r →
      ¬(h.recalculatePaddingRate r).bucket.Bounded kPaddingBurstSize ((h.bucketRate r).toNat / 8)
        kMaxPaddingSize.toNat first) ∧
    ∀ (h : RtpRetransmissionHandler) (r : RetransmissionReading), h.Due r →
      ((h.calculateRtxBitrate r).bucket.Bounded kBurstSize.toNat r.rtxBitrate.toNat
          maxPacketLength first ↔
        r.rtxBitrate.toNat ∣ 1000000 ∧ kBurstSize.toNat * tokenTime r.rtxBitrate ≤ first) := by
  constructor
  · intro h r hdue hbounded
    rw [bucket_recalculatePaddingRate hdue] at hbounded
    have hrate := ((withRate_bounded_iff (by decide) (by decide) (by decide) hfirst).mp hbounded).1
    have hexact : ((h.bucketRate r).toNat * tokenTime (h.bucketRate r) : ℚ) ≤ 1000000 := by
      exact_mod_cast rate_mul_tokenTime_le (h.bucketRate r)
    linarith
  · intro h r hdue
    rw [bucket_calculateRtxBitrate hdue, withRate_bounded_iff (by decide) (by decide) (by decide) hfirst,
      le_rate_mul_tokenTime_iff]

/-- A thousand bytes per second are a byte every millisecond. -/
theorem buckets_bounded_iff_exact :
    (({} : RtpRetransmissionHandler).calculateRtxBitrate { now := 600000000, rtxBitrate := 1000 }
      ).bucket.Bounded kBurstSize.toNat 1000 maxPacketLength 26000000 :=
  ((buckets_bounded_iff 26000000 (by norm_num)).2 {} { now := 600000000, rtxBitrate := 1000 }
    (by decide)).mpr ⟨by decide, by decide⟩

/-- A burst of padding and one byte more, a millisecond later: the bucket of 8000 bits per second
makes 8 of them a millisecond. -/
theorem not_buckets_bounded : ¬∀ rate : UInt64,
    (withRate rate (.ofNat kPaddingBurstSize)).Bounded kPaddingBurstSize (rate.toNat / 8)
        kMaxPaddingSize.toNat 0 ∧
      (withRate rate kBurstSize).Bounded kBurstSize.toNat rate.toNat maxPacketLength 0 := by
  intro h
  let attempts : List Attempt := List.replicate 10 ⟨5000000, 255⟩ ++ [⟨5001000, 8⟩]
  have hschedule : Schedule kMaxPaddingSize.toNat 0 attempts :=
    ⟨by decide, by decide, by decide, by decide⟩
  have hadmitted := (h 8000).1 attempts hschedule 5000000 5001000 (by norm_num)
  have hrun : admitted 5000000 5001000 (withRate 8000 (.ofNat kPaddingBurstSize)) attempts = 2558 := by
    decide
  rw [hrun, show (8000 : UInt64).toNat = 8000 from rfl] at hadmitted
  norm_num [kPaddingBurstSize] at hadmitted

end KkLicode.Rtp
