import KkLicode.Base.Runs
import KkLicode.Base.Unwrap
import KkLicode.Rtp.DataPacket
import KkLicode.Rtp.SequenceNumberTranslator

/-! `RtcpRrGenerator`, which counts the packets of a stream and writes receiver
reports. The jitter is a floating point number and is left out; a report reads it
rounded. The highest number, extended by the wraps counted so far, is that of the
numbers without wraps. -/

namespace KkLicode.Rtp

open Base Base.Serial

/-- `max_seq` and `base_seq` have no value before the first packet. -/
structure RrPacketInfo where
  lastSrTs : UInt64 := 0
  nextPacketMs : UInt64 := 0
  lastPacketMs : UInt64 := 0
  lastSrMidNtp : UInt32 := 0
  lastRrTs : UInt32 := 0
  lastRtpTs : UInt32 := 0
  packetsReceived : UInt32 := 0
  extendedSeq : UInt32 := 0
  lost : UInt32 := 0
  expectedPrior : UInt32 := 0
  receivedPrior : UInt32 := 0
  lastRecvTs : UInt32 := 0
  maxSeq : Option UInt16 := none
  baseSeq : Option UInt16 := none
  cycle : UInt16 := 0
  fracLost : UInt8 := 0
  deriving DecidableEq, Repr

structure RtcpRrGenerator where
  rrInfo : RrPacketInfo := {}
  ssrc : UInt32
  type : PacketType
  deriving DecidableEq, Repr

/-- The report of a stream. The cumulative loss has 24 bits. -/
structure ReceiverReport where
  ssrc : UInt32
  sourceSSRC : UInt32
  highestSeqnum : UInt16
  seqnumCycles : UInt16
  lostPackets : BitVec 24
  fractionLost : UInt8
  jitter : UInt32
  delaySinceLastSr : UInt32
  lastSr : UInt32
  deriving DecidableEq, Repr

/-- What a report reads: the clock, the jitter, and the random time to the next report. -/
structure ReportReading where
  now : UInt64 := 0
  jitter : UInt32 := 0
  randomInterval : UInt16 := 0
  deriving DecidableEq, Repr

namespace RrPacketInfo

/-- The highest number and the count of wraps after a packet. -/
def advance (i : RrPacketInfo) (seqNum : UInt16) : UInt16 × UInt16 :=
  match i.maxSeq with
  | none => (seqNum, i.cycle)
  | some maxSeq =>
    if !sequenceNumberLessThan seqNum maxSeq then
      (seqNum, if seqNum < maxSeq then i.cycle + 1 else i.cycle)
    else (maxSeq, i.cycle)

def receive (i : RrPacketInfo) (seqNum : UInt16) : RrPacketInfo :=
  let (maxSeq, cycle) := i.advance seqNum
  { i with
    packetsReceived := i.packetsReceived + 1
    baseSeq := some (i.baseSeq.getD seqNum)
    maxSeq := some maxSeq
    cycle := cycle
    extendedSeq := (cycle.toUInt32 <<< 16) ||| maxSeq.toUInt32 }

/-- Without a packet the first number counts as -1. -/
def expected (i : RrPacketInfo) : UInt32 :=
  i.extendedSeq - (match i.baseSeq with | none => -1 | some baseSeq => baseSeq.toUInt32) + 1

/-- The lost part of an interval in 256ths. -/
def fraction (expectedInterval receivedInterval : UInt32) : UInt8 :=
  let lostInterval : ℤ := expectedInterval.toNat - receivedInterval.toNat
  if expectedInterval ≠ 0 ∧ lostInterval > 0 then
    ((UInt32.ofInt lostInterval <<< 8) / expectedInterval).toUInt8
  else 0

end RrPacketInfo

namespace RtcpRrGenerator

def RTCP_AUDIO_INTERVAL : UInt16 := 5000
def RTCP_VIDEO_INTERVAL : UInt16 := 1000

def selectInterval (g : RtcpRrGenerator) : UInt16 :=
  if g.type = .video then RTCP_VIDEO_INTERVAL else RTCP_AUDIO_INTERVAL

def handleRtpPacket (g : RtcpRrGenerator) (packet : DataPacket) (receivedTimeMs now : UInt64) :
    RtcpRrGenerator × Bool :=
  if g.ssrc ≠ packet.header.ssrc then (g, false)
  else
    let i := { g.rrInfo.receive packet.header.seqNumber with
      lastRtpTs := packet.header.timestamp
      lastRecvTs := receivedTimeMs.toUInt32 }
    if i.nextPacketMs = 0 then
      ({ g with rrInfo := { i with nextPacketMs := now + g.selectInterval.toUInt64 } }, false)
    else ({ g with rrInfo := i }, now ≥ i.nextPacketMs)

/-- `handleSr`, with the middle of the report's NTP time. -/
def handleSr (g : RtcpRrGenerator) (ssrc middleNtp : UInt32) (receivedTimeMs : UInt64) :
    RtcpRrGenerator :=
  if g.ssrc ≠ ssrc then g
  else { g with rrInfo := { g.rrInfo with lastSrMidNtp := middleNtp, lastSrTs := receivedTimeMs } }

def generateReceiverReport (g : RtcpRrGenerator) (r : ReportReading) :
    RtcpRrGenerator × ReceiverReport :=
  let i := g.rrInfo
  let delaySinceLastSr := if i.lastSrTs = 0 then 0 else (r.now - i.lastSrTs) * 65536 / 1000
  let expected := i.expected
  let lost := if expected < i.packetsReceived then 0 else expected - i.packetsReceived
  let fracLost := RrPacketInfo.fraction (expected - i.expectedPrior)
    (i.packetsReceived - i.receivedPrior)
  ({ g with rrInfo := { i with
      lost := lost, fracLost := fracLost, expectedPrior := expected
      receivedPrior := i.packetsReceived, lastRrTs := r.now.toUInt32
      nextPacketMs := r.now + r.randomInterval.toUInt64, lastPacketMs := r.now } },
    { ssrc := g.ssrc, sourceSSRC := g.ssrc, highestSeqnum := i.extendedSeq.toUInt16
      seqnumCycles := i.cycle, lostPackets := .ofNat 24 lost.toNat, fractionLost := fracLost
      jitter := r.jitter, delaySinceLastSr := delaySinceLastSr.toUInt32
      lastSr := i.lastSrMidNtp })

/-! ### The highest number -/

/-- The highest number so far is `highest` and the first one was `first`, both without wraps. -/
structure Tracks (i : RrPacketInfo) (first highest : ℕ) : Prop where
  first_lt : first < 65536
  first_le : first ≤ highest
  baseSeq : i.baseSeq = some (.ofNat first)
  maxSeq : i.maxSeq = some (.ofNat highest)
  cycle : i.cycle = .ofNat (highest / 65536)
  extendedSeq : i.extendedSeq = .ofNat highest

variable {i : RrPacketInfo} {first highest : ℕ} {n : UInt16}

theorem shiftLeft_or {c m : UInt16} :
    (c.toUInt32 <<< 16 ||| m.toUInt32).toNat = 65536 * c.toNat + m.toNat := by
  have hc := c.toNat_lt
  have hor := Nat.two_pow_add_eq_or_of_lt (i := 16) m.toNat_lt c.toNat
  rw [UInt32.toNat_or, UInt32.toNat_shiftLeft, UInt16.toNat_toUInt32, UInt16.toNat_toUInt32,
    show (16 : UInt32).toNat % 32 = 16 from rfl, Nat.shiftLeft_eq, Nat.mod_eq_of_lt (by omega),
    Nat.mul_comm, ← hor]

theorem extended_eq (highest : ℕ) :
    ((UInt16.ofNat (highest / 65536)).toUInt32 <<< 16) ||| (UInt16.ofNat highest).toUInt32 =
      .ofNat highest := by
  apply UInt32.toNat_inj.mp
  rw [shiftLeft_or, UInt16.toNat_ofNat', UInt16.toNat_ofNat', UInt32.toNat_ofNat']
  omega

/-- The first packet. -/
theorem Tracks.receive_first (hmax : i.maxSeq = none) (hbase : i.baseSeq = none) (hcycle : i.cycle = 0)
    (n : UInt16) : Tracks (i.receive n) n.toNat n.toNat := by
  have hn := n.toNat_lt
  have hcyc : n.toNat / 65536 = 0 := by omega
  have hext := extended_eq n.toNat
  rw [hcyc, UInt16.ofNat_toNat] at hext
  refine ⟨n.toNat_lt, le_rfl, ?_, ?_, ?_, ?_⟩ <;>
    simp [RrPacketInfo.receive, RrPacketInfo.advance, hmax, hbase, hcycle, hcyc]

/-- The numbers of the window that are behind are those that are less. -/
theorem unwrap_lt_iff (highest : ℕ) (n : UInt16) :
    sequenceNumberLessThan n (.ofNat highest) = true ↔ unwrap 4095 highest n < highest := by
  have hlow := le_unwrap 4095 highest n
  have hhigh := unwrap_lt 4095 highest n
  have hdist := ahead_ofInt (unwrap 4095 highest n) highest
  rw [ofInt_unwrap, ofInt_natCast] at hdist
  rw [sequenceNumberLessThan_iff]
  omega

/-- A packet moves the highest number up to its own, if that is ahead. -/
theorem Tracks.receive (h : Tracks i first highest) (n : UInt16) :
    Tracks (i.receive n) first (max (highest : ℤ) (unwrap 4095 highest n)).toNat := by
  obtain ⟨x, hx⟩ : ∃ x, x = unwrap 4095 highest n := ⟨_, rfl⟩
  have hlow := le_unwrap 4095 highest n
  have hhigh := unwrap_lt 4095 highest n
  have hn : UInt16.ofInt x = n := by rw [hx, ofInt_unwrap]
  have hless := unwrap_lt_iff highest n
  rw [← hx] at hlow hhigh hless ⊢
  have hadvance : i.advance n =
      (.ofNat (max (highest : ℤ) x).toNat, .ofNat ((max (highest : ℤ) x).toNat / 65536)) := by
    unfold RrPacketInfo.advance
    rw [h.maxSeq]
    dsimp only
    by_cases hlt : x < highest
    · rw [if_neg (by simp [hless.mpr hlt]), h.cycle, max_eq_left hlt.le, Int.toNat_natCast]
    · -- the number is ahead of the highest one, by less than a lap
      obtain ⟨y, rfl⟩ : ∃ y : ℕ, x = y := ⟨x.toNat, by omega⟩
      have hn' : n = .ofNat y := by rw [← hn, ofInt_natCast]
      have hwrap : n < UInt16.ofNat highest ↔ y % 65536 < highest % 65536 := by
        rw [hn', UInt16.lt_iff_toNat_lt, UInt16.toNat_ofNat', UInt16.toNat_ofNat']
      have hnot : sequenceNumberLessThan n (.ofNat highest) = false := by
        rw [← Bool.not_eq_true, hless]
        exact hlt
      rw [hnot, Bool.not_false, if_pos rfl, max_eq_right (by omega), Int.toNat_natCast, hn', h.cycle]
      congr 1
      split_ifs with hc
      · rw [← ofNat_add_one]
        congr 1
        have := hwrap.mp (hn' ▸ hc)
        omega
      · congr 1
        have := mt hwrap.mpr (hn' ▸ hc)
        omega
  refine ⟨h.first_lt, ?_, ?_, ?_, ?_, ?_⟩
  · have := h.first_le
    omega
  · simp [RrPacketInfo.receive, h.baseSeq]
  · simp [RrPacketInfo.receive, hadvance]
  · simp [RrPacketInfo.receive, hadvance]
  · simp only [RrPacketInfo.receive, hadvance]
    exact extended_eq _

/-! ### Streams -/

/-- A packet that arrives, with its number without wraps, and the clock. -/
structure Arrival where
  number : ℤ
  packet : DataPacket
  receivedTimeMs : UInt64 := 0
  now : UInt64 := 0
  deriving DecidableEq, Repr

/-- The packet is one of the stream `ssrc` and carries the number modulo 65536. -/
def Arrival.OfStream (a : Arrival) (ssrc : UInt32) : Prop :=
  a.packet.header.ssrc = ssrc ∧ a.packet.header.seqNumber = .ofInt a.number

instance (a : Arrival) (ssrc : UInt32) : Decidable (a.OfStream ssrc) :=
  inferInstanceAs (Decidable (_ ∧ _))

def handle (g : RtcpRrGenerator) (a : Arrival) : RtcpRrGenerator × Bool :=
  g.handleRtpPacket a.packet a.receivedTimeMs a.now

/-- The highest of the numbers. -/
def highestOf : Option ℤ → List ℤ → Option ℤ
  | h, [] => h
  | none, x :: l => highestOf (some x) l
  | some h, x :: l => highestOf (some (max h x)) l

/-- The first number is one of sixteen bits; every other one is at most 4095 behind and at most
61440 ahead of the highest before it. -/
def Within : Option ℤ → List ℤ → Prop
  | _, [] => True
  | none, x :: l => (0 ≤ x ∧ x < 65536) ∧ Within (some x) l
  | some h, x :: l => (h - 4095 ≤ x ∧ x ≤ h + 61440) ∧ Within (some (max h x)) l

instance Within.decidable : ∀ o l, Decidable (Within o l)
  | _, [] => isTrue trivial
  | none, x :: l =>
    haveI := Within.decidable (some x) l
    inferInstanceAs (Decidable (_ ∧ _))
  | some h, x :: l =>
    haveI := Within.decidable (some (max h x)) l
    inferInstanceAs (Decidable (_ ∧ _))

variable {g : RtcpRrGenerator} {a : Arrival} {arrivals : List Arrival}

/-- The other counters of a packet have nothing to do with its number. -/
theorem Tracks.handle (hs : a.OfStream g.ssrc)
    (h : Tracks (g.rrInfo.receive (.ofInt a.number)) first highest) :
    Tracks (g.handle a).1.rrInfo first highest := by
  rw [← hs.2] at h
  unfold RtcpRrGenerator.handle handleRtpPacket
  rw [if_neg (not_not.mpr hs.1.symm)]
  dsimp only
  split_ifs
  · exact ⟨h.first_lt, h.first_le, h.baseSeq, h.maxSeq, h.cycle, h.extendedSeq⟩
  · exact ⟨h.first_lt, h.first_le, h.baseSeq, h.maxSeq, h.cycle, h.extendedSeq⟩

theorem handle_ssrc (g : RtcpRrGenerator) (a : Arrival) : (g.handle a).1.ssrc = g.ssrc := by
  unfold handle handleRtpPacket
  dsimp only
  split_ifs <;> rfl

theorem Tracks.run (h : Tracks g.rrInfo first highest) (hs : ∀ a ∈ arrivals, a.OfStream g.ssrc)
    (hw : Within (some highest) (arrivals.map (·.number))) :
    ∃ highest' : ℕ, highestOf (some highest) (arrivals.map (·.number)) = some (highest' : ℤ) ∧
      Tracks (Runs.final RtcpRrGenerator.handle g arrivals).rrInfo first highest' := by
  induction arrivals generalizing g highest with
  | nil => exact ⟨highest, rfl, h⟩
  | cons a arrivals ih =>
    rw [List.map_cons, Within] at hw
    obtain ⟨⟨hlow, hhigh⟩, hw⟩ := hw
    have ha := hs a List.mem_cons_self
    have hx : unwrap 4095 highest (.ofInt a.number) = a.number :=
      unwrap_eq rfl (by omega) (by omega)
    have hstep : Tracks (g.handle a).1.rrInfo first (max (highest : ℤ) a.number).toNat := by
      have hreceive := h.receive (.ofInt a.number)
      rw [hx] at hreceive
      exact hreceive.handle ha
    have hcast : ((max (highest : ℤ) a.number).toNat : ℤ) = max (highest : ℤ) a.number := by omega
    obtain ⟨highest', hhighest, htracks⟩ := ih hstep
      (fun b hb => by rw [handle_ssrc]; exact hs b (List.mem_cons_of_mem _ hb)) (by rwa [hcast])
    rw [hcast] at hhighest
    exact ⟨highest', hhighest, htracks⟩

/-- After every packet the extended number is the highest number without wraps, modulo `2 ^ 32`. -/
theorem extendedSeq_eq (ssrc : UInt32) (type : PacketType) (arrivals : List Arrival)
    (hs : ∀ a ∈ arrivals, a.OfStream ssrc) (hw : Within none (arrivals.map (·.number)))
    (hne : arrivals ≠ []) :
    ∃ highest ∈ highestOf none (arrivals.map (·.number)),
      (Runs.final handle { ssrc := ssrc, type := type } arrivals).rrInfo.extendedSeq =
        .ofInt highest := by
  cases arrivals with
  | nil => exact absurd rfl hne
  | cons a arrivals =>
    rw [List.map_cons, Within] at hw
    obtain ⟨⟨hlow, hhigh⟩, hw⟩ := hw
    have ha := hs a List.mem_cons_self
    have hfirst := (Tracks.receive_first (i := {}) rfl rfl rfl (.ofInt a.number)).handle
      (g := { ssrc := ssrc, type := type }) ha
    have hx : ((UInt16.ofInt a.number).toNat : ℤ) = a.number := by
      rw [ofInt_toNat_eq]
      omega
    have hw : Within (some ((UInt16.ofInt a.number).toNat : ℤ)) (arrivals.map (·.number)) := by
      rw [hx]
      exact hw
    obtain ⟨highest, hhighest, htracks⟩ := hfirst.run
      (fun b hb => by rw [handle_ssrc]; exact hs b (List.mem_cons_of_mem _ hb)) hw
    rw [hx] at hhighest
    refine ⟨highest, hhighest, htracks.extendedSeq.trans ?_⟩
    apply UInt32.toNat_inj.mp
    rw [UInt32.ofInt, UInt32.toNat_ofNat', UInt32.toNat_ofNat']
    omega

/-- Two wraps, with a late packet between them. -/
def twoWraps : List Arrival := [65000, 65700, 64900, 127000, 131080].map fun x =>
  { number := x, packet := { header := { seqNumber := .ofInt x, ssrc := 7 } } }

theorem extendedSeq_twoWraps :
    ∃ highest ∈ highestOf none (twoWraps.map (·.number)),
      (Runs.final handle { ssrc := 7, type := .video } twoWraps).rrInfo.extendedSeq =
        .ofInt highest :=
  extendedSeq_eq 7 .video twoWraps (by decide) (by decide) (by decide)

end RtcpRrGenerator

end KkLicode.Rtp
