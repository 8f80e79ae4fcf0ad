import KkLicode.Base.Groups
import KkLicode.Base.Runs
import KkLicode.Rtp.DataPacket

/-! The rate control of a subscriber: `WebRtcConnection::sendPacket` drops video
packets when too much video was sent in a control period. The bytes it compares
with the rate are counted in variables of the call, which start at zero each time. -/

namespace KkLicode.Media

open Base Base.Groups Rtp

/-- Nanoseconds. -/
def kBitrateControlPeriod : ℤ := 100000000

structure WebRtcConnection where
  sending : Bool := true
  pipelineInitialized : Bool := false
  slideShowMode : Bool := false
  shouldSendFeedback : Bool := true
  videoEnabled : Bool := false
  rateControl : UInt32 := 0
  now : ℤ := 0
  mark : ℤ := 0
  deriving DecidableEq, Repr

/-- A call of `sendPacket`, and what the clock shows then. -/
structure Sending where
  time : ℤ
  packet : DataPacket
  deriving DecidableEq, Repr

namespace WebRtcConnection

def setFeedbackReports (c : WebRtcConnection) (willSendFb : Bool) (targetBitrate : UInt32) :
    WebRtcConnection :=
  let targetBitrate := if c.slideShowMode then 0 else targetBitrate
  { c with
    shouldSendFeedback := willSendFb
    videoEnabled := if targetBitrate = 1 then false else c.videoEnabled
    rateControl := targetBitrate }

/-- The end of `sendPacket`. -/
def write (c : WebRtcConnection) (p : DataPacket) : Option DataPacket :=
  if c.pipelineInitialized then some p else none

/-- `sendPacket`, with the packet that is written to the pipeline. -/
def sendPacket (c : WebRtcConnection) (s : Sending) : WebRtcConnection × Option DataPacket :=
  if !c.sending then (c, none)
  else
    let sentVideoBytes : UInt64 := 0
    let lastSecondVideoBytes : UInt64 := 0
    if c.rateControl ≠ 0 ∧ !c.slideShowMode then
      if s.packet.type = .video then
        if c.rateControl = 1 then (c, none)
        else
          let c := { c with now := s.time }
          let due := c.now - c.mark ≥ kBitrateControlPeriod
          let lastSecondVideoBytes := if due then sentVideoBytes else lastSecondVideoBytes
          let c := if due then { c with mark := c.now } else c
          let partialBitrate : UInt32 := (((sentVideoBytes - lastSecondVideoBytes) * 8) * 10).toUInt32
          if partialBitrate > c.rateControl then (c, none)
          else (c, c.write s.packet)
      else (c, c.write s.packet)
    else (c, c.write s.packet)

/-! ### Control periods -/

/-- The control period a video packet falls in, by the time it began. -/
def period (mark time : ℤ) : ℤ := if time - mark ≥ kBitrateControlPeriod then time else mark

/-- The video packets of a run that are handed to `sendPacket`, each with its control period. -/
def offered : ℤ → List Sending → List (ℤ × DataPacket)
  | _, [] => []
  | mark, s :: l =>
    if s.packet.type = .video then
      (period mark s.time, s.packet) :: offered (period mark s.time) l
    else offered mark l

/-- A video packet that is forwarded, with the mark it is sent under. -/
def sentVideo (c : WebRtcConnection) (s : Sending) : List (ℤ × DataPacket) :=
  match c.sendPacket s with
  | (c, some p) => if p.type = .video then [(c.mark, p)] else []
  | (_, none) => []

/-- The video packets that are forwarded in a run. -/
def forwarded (c : WebRtcConnection) (l : List Sending) : List (ℤ × DataPacket) :=
  Runs.collect sendPacket sentVideo c l

/-- No packet is sent when the bytes before it in its control period are more than the rate
allows. -/
def Limited (rate : UInt32) (packets : List (ℤ × DataPacket)) : Prop :=
  ∀ before x after, packets = before ++ x :: after →
    ((group x.1 before).map DataPacket.length).sum * 80 ≤ rate.toNat

theorem limited_iff {rate : UInt32} {packets : List (ℤ × DataPacket)} :
    Limited rate packets ↔
      ∀ start, ((group start packets).dropLast.map DataPacket.length).sum * 80 ≤ rate.toNat := by
  have hbound : Limited rate packets ↔ Bounded DataPacket.length (rate.toNat / 80) packets := by
    simp only [Limited, Bounded, Nat.le_div_iff_mul_le (show 0 < 80 by decide)]
  rw [hbound, bounded_iff]
  simp only [Nat.le_div_iff_mul_le (show 0 < 80 by decide)]

/-! ### What is forwarded -/

variable {c : WebRtcConnection} {s : Sending}

theorem sendPacket_closed (hs : c.sending = false) (s : Sending) : c.sendPacket s = (c, none) := by
  rw [sendPacket, hs]
  rfl

theorem sendPacket_other (hs : c.sending = true) (hv : s.packet.type ≠ .video) :
    c.sendPacket s = (c, c.write s.packet) := by
  rw [sendPacket, hs]
  simp [hv]

/-- A video packet moves the mark when a period is over, and is always let through. -/
theorem sendPacket_video (hs : c.sending = true) (hm : c.slideShowMode = false)
    (hr : 1 < c.rateControl) (hv : s.packet.type = .video) :
    c.sendPacket s = ({ c with now := s.time, mark := period c.mark s.time }, c.write s.packet) := by
  have hr0 : c.rateControl ≠ 0 := by
    intro h
    rw [h] at hr
    exact absurd hr (by decide)
  have hr1 : c.rateControl ≠ 1 := (UInt32.ne_of_lt hr).symm
  have hzero : ¬ (0 : UInt32) > c.rateControl := UInt32.not_lt.mpr UInt32.zero_le
  rw [sendPacket, hs]
  by_cases hdue : s.time - c.mark ≥ kBitrateControlPeriod <;>
    simp [hr0, hr1, hm, hv, hdue, period, hzero, write]

/-- All that is offered is forwarded. -/
theorem forwarded_eq (hm : c.slideShowMode = false) (hr : 1 < c.rateControl) (l : List Sending) :
    forwarded c l =
      if c.sending && c.pipelineInitialized then offered c.mark l else [] := by
  induction l generalizing c with
  | nil => simp [forwarded, offered]
  | cons s l ih =>
    rw [forwarded, Runs.collect_cons, ← forwarded, offered, sentVideo]
    cases hs : c.sending with
    | false =>
      rw [sendPacket_closed hs, ih hm hr, hs]
      rfl
    | true =>
      by_cases hv : s.packet.type = .video
      · have hrest := @ih { c with now := s.time, mark := period c.mark s.time } hm hr
        rw [sendPacket_video hs hm hr hv]
        dsimp only
        rw [hrest, if_pos hv, hs]
        cases hp : c.pipelineInitialized <;> simp [write, hp, hv]
      · rw [sendPacket_other hs hv, ih hm hr, if_neg hv, hs]
        cases hp : c.pipelineInitialized <;> simp [write, hp, hv]

/-- In every run after a rate was set, what is forwarded is limited exactly if no control period is
offered more than the rate allows before its last packet. -/
theorem limited_forwarded_iff (c : WebRtcConnection) (willSendFb : Bool) (rate : UInt32)
    (hm : c.slideShowMode = false) (hr : 1 < rate) (l : List Sending) :
    Limited rate (forwarded (c.setFeedbackReports willSendFb rate) l) ↔
      (c.sending = true → c.pipelineInitialized = true → ∀ start,
        ((group start (offered c.mark l)).dropLast.map DataPacket.length).sum * 80 ≤ rate.toNat) := by
  have hrate : (c.setFeedbackReports willSendFb rate).rateControl = rate := by
    simp [setFeedbackReports, hm]
  have hf := forwarded_eq (c := c.setFeedbackReports willSendFb rate) hm (hrate.symm ▸ hr) l
  rw [hf, limited_iff]
  cases hs : c.sending <;> cases hp : c.pipelineInitialized <;>
    simp [setFeedbackReports, hs, hp, group]

/-- Two packets of twelve bytes in one period. -/
def pair : List Sending := [⟨0, {}⟩, ⟨50000000, {}⟩]

theorem limited_forwarded_pair : Limited 960
    (forwarded (({ pipelineInitialized := true } : WebRtcConnection).setFeedbackReports true 960)
      pair) := by
  refine (limited_forwarded_iff { pipelineInitialized := true } true 960 rfl (by decide) pair).mpr
    fun _ _ start => ?_
  have hoffered : offered 0 pair = [(0, {}), (0, {})] := by decide
  rw [hoffered]
  by_cases h : (0 : ℤ) = start <;> simp [group, h, DataPacket.length, RtpHeader.headerLength]

theorem not_limited_forwarded : ¬∀ (c : WebRtcConnection) (willSendFb : Bool) (rate : UInt32),
    c.slideShowMode = false → 1 < rate → ∀ l : List Sending,
      Limited rate (forwarded (c.setFeedbackReports willSendFb rate) l) := by
  intro h
  have hforwarded :
      forwarded (({ pipelineInitialized := true } : WebRtcConnection).setFeedbackReports true 900)
        pair = [(0, {}), (0, {})] := by decide
  have hlim := h { pipelineInitialized := true } true 900 rfl (by decide) pair
  rw [hforwarded] at hlim
  exact absurd (hlim [(0, {})] (0, {}) [] rfl) (by decide)

end WebRtcConnection

end KkLicode.Media
