import Mathlib.Algebra.Group.Nat.Defs
import KkLicode.Rtp.RtcpRrGenerator

/-! The loss that receiver reports tell. A reception counts in natural numbers what
was expected and what was received, in all and since the last report; the
generator counts the same modulo `2 ^ 32`. -/

namespace KkLicode.Rtp

open Base Base.Serial RtcpRrGenerator

/-- What was received of a stream. The numbers have no wraps. -/
structure Reception where
  first : ℕ
  highest : ℕ
  received : ℕ
  expectedPrior : ℕ := 0
  receivedPrior : ℕ := 0
  deriving DecidableEq, Repr

namespace Reception

def start (n : UInt16) : Reception := { first := n.toNat, highest := n.toNat, received := 1 }

/-- A packet moves the highest number, if its own is ahead. -/
def receive (r : Reception) (n : UInt16) : Reception :=
  { r with
    highest := (max (r.highest : ℤ) (unwrap 4095 r.highest n)).toNat
    received := r.received + 1 }

def expected (r : Reception) : ℕ := r.highest - r.first + 1

def report (r : Reception) : Reception :=
  { r with expectedPrior := r.expected, receivedPrior := r.received }

/-- The packets that are missing, in all. -/
def lost (r : Reception) : ℕ := r.expected - r.received

def expectedInterval (r : Reception) : ℕ := r.expected - r.expectedPrior

/-- The packets that are missing since the last report. -/
def lostInterval (r : Reception) : ℕ := r.expectedInterval - (r.received - r.receivedPrior)

def fraction (r : Reception) : ℕ := 256 * r.lostInterval / r.expectedInterval

/-- A report may be written: there was a packet since the last one, and the numbers expected are
not too many. -/
structure Due (r : Reception) : Prop where
  received : r.receivedPrior < r.received
  expectedInterval : r.expectedInterval < 2 ^ 24
  expected : r.expected < 2 ^ 32

instance (r : Reception) : Decidable r.Due :=
  decidable_of_iff (_ ∧ _ ∧ _) ⟨fun ⟨h, h', h''⟩ => ⟨h, h', h''⟩, fun ⟨h, h', h''⟩ => ⟨h, h', h''⟩⟩

end Reception

/-- What the generator is given to do. -/
inductive RrEvent where
  | packet (packet : DataPacket) (receivedTimeMs now : UInt64)
  | senderReport (ssrc middleNtp : UInt32) (receivedTimeMs : UInt64)
  | report (reading : ReportReading)
  deriving DecidableEq, Repr

namespace RtcpRrGenerator

def step (g : RtcpRrGenerator) : RrEvent → RtcpRrGenerator × Option ReceiverReport
  | .packet packet receivedTimeMs now => ((g.handleRtpPacket packet receivedTimeMs now).1, none)
  | .senderReport ssrc middleNtp receivedTimeMs => (g.handleSr ssrc middleNtp receivedTimeMs, none)
  | .report reading =>
    let (g, report) := g.generateReceiverReport reading
    (g, some report)

/-- The generator counts as the reception does. -/
structure Counts (i : RrPacketInfo) (r : Reception) : Prop extends
    Tracks i r.first r.highest where
  packetsReceived : i.packetsReceived = .ofNat r.received
  expectedPrior : i.expectedPrior = .ofNat r.expectedPrior
  receivedPrior : i.receivedPrior = .ofNat r.receivedPrior
  expectedPrior_le : r.expectedPrior ≤ r.expected
  receivedPrior_le : r.receivedPrior ≤ r.received

/-- Nothing was counted. -/
structure Blank (i : RrPacketInfo) : Prop where
  maxSeq : i.maxSeq = none
  baseSeq : i.baseSeq = none
  cycle : i.cycle = 0
  packetsReceived : i.packetsReceived = 0
  expectedPrior : i.expectedPrior = 0
  receivedPrior : i.receivedPrior = 0

variable {g : RtcpRrGenerator} {i : RrPacketInfo} {r : Reception}

theorem Blank.receive (h : Blank i) (n : UInt16) : Counts (i.receive n) (.start n) where
  toTracks := .receive_first h.maxSeq h.baseSeq h.cycle n
  packetsReceived := by simp [RrPacketInfo.receive, h.packetsReceived, Reception.start]
  expectedPrior := h.expectedPrior
  receivedPrior := h.receivedPrior
  expectedPrior_le := Nat.zero_le _
  receivedPrior_le := Nat.zero_le _

theorem Counts.receive (h : Counts i r) (n : UInt16) : Counts (i.receive n) (r.receive n) where
  toTracks := h.toTracks.receive n
  packetsReceived := by
    simp only [RrPacketInfo.receive, h.packetsReceived, Reception.receive]
    exact (UInt32.ofNat_add r.received 1).symm
  expectedPrior := h.expectedPrior
  receivedPrior := h.receivedPrior
  expectedPrior_le := by
    have hle := h.expectedPrior_le
    simp only [Reception.expected, Reception.receive] at hle ⊢
    omega
  receivedPrior_le := h.receivedPrior_le.trans (Nat.le_succ _)

theorem Counts.expected (h : Counts i r) : i.expected = .ofNat r.expected := by
  apply UInt32.toNat_inj.mp
  have hlt := h.first_lt
  have hle := h.first_le
  unfold RrPacketInfo.expected Reception.expected
  rw [h.baseSeq, h.extendedSeq]
  simp only [UInt32.toNat_add, UInt32.toNat_sub, UInt32.toNat_ofNat', UInt16.toNat_toUInt32,
    UInt16.toNat_ofNat', UInt32.toNat_one]
  omega

/-- The fraction of an interval in which something was received is below 256, and nothing is cut
off on the way. -/
theorem Counts.fraction (h : Counts i r) (hdue : r.Due) (hreceived : r.received < 2 ^ 32) :
    (RrPacketInfo.fraction (i.expected - i.expectedPrior)
      (i.packetsReceived - i.receivedPrior)).toNat = r.fraction ∧ r.lostInterval * 256 < 2 ^ 32 := by
  obtain ⟨hpos, hinterval, hexpected⟩ := hdue
  have hle := h.expectedPrior_le
  have hle' := h.receivedPrior_le
  have he : (i.expected - i.expectedPrior).toNat = r.expectedInterval := by
    rw [h.expected, h.expectedPrior, UInt32.toNat_sub, UInt32.toNat_ofNat', UInt32.toNat_ofNat']
    unfold Reception.expectedInterval
    omega
  have hr : (i.packetsReceived - i.receivedPrior).toNat = r.received - r.receivedPrior := by
    rw [h.packetsReceived, h.receivedPrior, UInt32.toNat_sub, UInt32.toNat_ofNat',
      UInt32.toNat_ofNat']
    omega
  have hlost : r.lostInterval * 256 < 2 ^ 32 := by
    unfold Reception.lostInterval
    omega
  refine ⟨?_, hlost⟩
  unfold RrPacketInfo.fraction Reception.fraction
  dsimp only
  rw [he, hr]
  split_ifs with hcond
  · obtain ⟨hne, hgt⟩ := hcond
    have hofInt : UInt32.ofInt ((r.expectedInterval : ℤ) - ((r.received - r.receivedPrior : ℕ) : ℤ)) =
        .ofNat r.lostInterval := by
      unfold UInt32.ofInt Reception.lostInterval
      congr 1
      omega
    have hshift : (UInt32.ofNat r.lostInterval <<< 8).toNat = 256 * r.lostInterval := by
      rw [UInt32.toNat_shiftLeft, UInt32.toNat_ofNat', show (8 : UInt32).toNat % 32 = 8 from rfl,
        Nat.shiftLeft_eq]
      omega
    have hlt : 256 * r.lostInterval / r.expectedInterval < 256 := by
      rw [Nat.div_lt_iff_lt_mul (by omega)]
      unfold Reception.lostInterval
      omega
    rw [hofInt, UInt32.toNat_toUInt8, UInt32.toNat_div, hshift, he, Nat.mod_eq_of_lt hlt]
  · have hzero : r.lostInterval = 0 ∨ r.expectedInterval = 0 := by
      rw [not_and_or, not_not, not_lt] at hcond
      rcases hcond with hcond | hcond
      · rw [← he, hcond]
        exact .inr rfl
      · unfold Reception.lostInterval
        omega
    rcases hzero with hzero | hzero <;> simp [hzero]

theorem Counts.lost (h : Counts i r) (hdue : r.Due) (hreceived : r.received < 2 ^ 32) :
    (if i.expected < i.packetsReceived then 0 else i.expected - i.packetsReceived).toNat =
      r.lost := by
  have hexpected := hdue.expected
  rw [h.expected, h.packetsReceived]
  unfold Reception.lost
  split_ifs with hlt <;> rw [UInt32.lt_iff_toNat_lt, UInt32.toNat_ofNat', UInt32.toNat_ofNat'] at hlt
  · rw [UInt32.toNat_zero]
    omega
  · rw [UInt32.toNat_sub, UInt32.toNat_ofNat', UInt32.toNat_ofNat']
    omega

end RtcpRrGenerator

/-! ### Runs -/

/-- A generator with what it should have counted. -/
structure Session where
  generator : RtcpRrGenerator
  reception : Option Reception := none
  deriving DecidableEq, Repr

namespace Session

def start (ssrc : UInt32) (type : PacketType) : Session := { generator := { ssrc := ssrc, type := type } }

/-- What is counted after an event. -/
def count (s : Session) : RrEvent → Option Reception
  | .packet packet _ _ =>
    if packet.header.ssrc = s.generator.ssrc then
      some (s.reception.elim (.start packet.header.seqNumber) (·.receive packet.header.seqNumber))
    else s.reception
  | .senderReport .. => s.reception
  | .report _ => s.reception.map (·.report)

def step (s : Session) (e : RrEvent) : Session × Option ReceiverReport :=
  let (g, report) := s.generator.step e
  ({ generator := g, reception := s.count e }, report)

/-- Reports are written when they are due. -/
def Due (s : Session) : RrEvent → Prop
  | .report _ => ∃ r ∈ s.reception, r.Due
  | _ => True

/-- Reports are written when they are due, and not too many packets were received. -/
def Fits (s : Session) : RrEvent → Prop
  | .report _ => ∃ r ∈ s.reception, r.Due ∧ r.received < 2 ^ 32
  | _ => True

/-- A report tells the loss in all and the lost part of its interval. -/
def Exact (s : Session) (e : RrEvent) : Prop :=
  ∀ report ∈ (s.step e).2, ∃ r ∈ s.reception,
    report.lostPackets.toNat = r.lost ∧ report.fractionLost.toNat = r.fraction ∧
      r.lostInterval * 256 < 2 ^ 32

/-- A report tells the loss in all as far as it has room in the report. -/
def Tells (s : Session) (e : RrEvent) : Prop :=
  ∀ report ∈ (s.step e).2, ∃ r ∈ s.reception,
    report.lostPackets.toNat = r.lost % 2 ^ 24 ∧ report.fractionLost.toNat = r.fraction ∧
      r.lostInterval * 256 < 2 ^ 32

instance (s : Session) (e : RrEvent) : Decidable (s.Due e) :=
  match e with
  | .report _ => inferInstanceAs (Decidable (∃ r ∈ s.reception, r.Due))
  | .packet .. | .senderReport .. => isTrue trivial

instance (s : Session) (e : RrEvent) : Decidable (s.Fits e) :=
  match e with
  | .report _ => inferInstanceAs (Decidable (∃ r ∈ s.reception, r.Due ∧ r.received < 2 ^ 32))
  | .packet .. | .senderReport .. => isTrue trivial

instance (s : Session) (e : RrEvent) : Decidable (s.Exact e) :=
  inferInstanceAs (Decidable (∀ report ∈ (s.step e).2, ∃ r ∈ s.reception, _ ∧ _ ∧ _))

/-- The generator counts what it should have counted. -/
def Sound (s : Session) : Prop :=
  s.reception.elim (Blank s.generator.rrInfo) (Counts s.generator.rrInfo)

variable {s : Session} {e : RrEvent}

theorem Sound.start (ssrc : UInt32) (type : PacketType) : Sound (start ssrc type) :=
  ⟨rfl, rfl, rfl, rfl, rfl, rfl⟩

theorem Sound.packet (h : Sound s) (packet : DataPacket) (receivedTimeMs now : UInt64) :
    Sound (s.step (.packet packet receivedTimeMs now)).1 := by
  unfold Session.step RtcpRrGenerator.step handleRtpPacket count
  dsimp only
  by_cases hssrc : packet.header.ssrc = s.generator.ssrc
  · rw [if_neg (not_not.mpr hssrc.symm), if_pos hssrc]
    have hreceive : Counts (s.generator.rrInfo.receive packet.header.seqNumber)
        (s.reception.elim (.start packet.header.seqNumber) (·.receive packet.header.seqNumber)) := by
      unfold Sound at h
      cases hr : s.reception with
      | none =>
        rw [hr] at h
        exact h.receive _
      | some r =>
        rw [hr] at h
        exact h.receive _
    split_ifs <;>
      exact ⟨⟨hreceive.first_lt, hreceive.first_le, hreceive.baseSeq, hreceive.maxSeq,
        hreceive.cycle, hreceive.extendedSeq⟩, hreceive.packetsReceived, hreceive.expectedPrior,
        hreceive.receivedPrior, hreceive.expectedPrior_le, hreceive.receivedPrior_le⟩
  · rw [if_pos (Ne.symm hssrc), if_neg hssrc]
    exact h

theorem Sound.senderReport (h : Sound s) (ssrc middleNtp : UInt32) (receivedTimeMs : UInt64) :
    Sound (s.step (.senderReport ssrc middleNtp receivedTimeMs)).1 := by
  unfold Session.step RtcpRrGenerator.step handleSr count
  dsimp only
  split_ifs
  · exact h
  · unfold Sound at h ⊢
    dsimp only
    cases hr : s.reception with
    | none =>
      rw [hr] at h
      exact ⟨h.maxSeq, h.baseSeq, h.cycle, h.packetsReceived, h.expectedPrior, h.receivedPrior⟩
    | some r =>
      rw [hr] at h
      exact ⟨⟨h.first_lt, h.first_le, h.baseSeq, h.maxSeq, h.cycle, h.extendedSeq⟩,
        h.packetsReceived, h.expectedPrior, h.receivedPrior, h.expectedPrior_le, h.receivedPrior_le⟩

theorem Sound.report {r : Reception} (h : Sound s) (hr : s.reception = some r)
    (reading : ReportReading) : Sound (s.step (.report reading)).1 := by
  unfold Sound at h
  rw [hr] at h
  have hcount : (s.step (.report reading)).1.reception = some r.report := by
    unfold Session.step count
    dsimp only
    rw [hr]
    rfl
  unfold Sound
  rw [hcount]
  exact ⟨⟨h.first_lt, h.first_le, h.baseSeq, h.maxSeq, h.cycle, h.extendedSeq⟩, h.packetsReceived,
    h.expected, h.packetsReceived, le_rfl, le_rfl⟩

theorem Sound.step (h : Sound s) (hf : s.Fits e) : Sound (s.step e).1 := by
  cases e with
  | packet packet receivedTimeMs now => exact h.packet packet receivedTimeMs now
  | senderReport ssrc middleNtp receivedTimeMs => exact h.senderReport ssrc middleNtp receivedTimeMs
  | report reading =>
    obtain ⟨r, hr, -⟩ := hf
    exact h.report hr reading

theorem Sound.tells (h : Sound s) (hf : s.Fits e) : s.Tells e := by
  intro report hreport
  cases e with
  | packet packet receivedTimeMs now => cases hreport
  | senderReport ssrc middleNtp receivedTimeMs => cases hreport
  | report reading =>
    obtain ⟨r, hr, hdue, hreceived⟩ := hf
    unfold Sound at h
    rw [hr] at h
    obtain rfl := Option.some.inj hreport
    refine ⟨r, hr, ?_, h.fraction hdue hreceived⟩
    show (BitVec.ofNat 24 _).toNat = _
    rw [BitVec.toNat_ofNat, h.lost hdue hreceived]

/-- In a run in which every report is due and fewer than `2 ^ 32` packets are received, the reports
tell the loss. -/
theorem tells_of_fits (ssrc : UInt32) (type : PacketType) (events : List RrEvent)
    (h : Runs.Steps step Fits (start ssrc type) events) :
    Runs.Steps step Tells (start ssrc type) events :=
  h.imp_of_invariant (fun _ _ hs hf => hs.step hf) (fun _ _ hs hf => hs.tells hf)
    (Sound.start ssrc type)

/-- A packet of the stream 7. -/
def numbered (n : ℕ) : RrEvent := .packet { header := { seqNumber := .ofNat n, ssrc := 7 } } 0 0

/-- Three packets of which one is lost, a report, then a late one and another report. -/
theorem tells_of_fits_late :
    Runs.Steps step Tells (start 7 .video)
      [numbered 65535, numbered 65537, .report {}, numbered 65536, numbered 65540, .report {}] :=
  tells_of_fits 7 .video _ (by decide)

/-! ### What reports cannot tell -/

/-- A stream of which one packet in 61440 arrives, with two reports. -/
def leaps : List RrEvent :=
  (List.range 200).map (fun k => numbered (61440 * k)) ++ [.report {}] ++
    (List.range' 200 200).map (fun k => numbered (61440 * k)) ++ [.report {}]

theorem count_numbered {r : Reception} (hs : s.generator.ssrc = 7) (hr : s.reception = some r) (n : ℕ) :
    s.count (numbered n) = some (r.receive (.ofNat n)) := by
  unfold count numbered
  dsimp only
  rw [if_pos hs.symm, hr]
  rfl

theorem reception_replicate (n : ℕ) :
    (Runs.final step (start 7 .video) (List.replicate (n + 1) (numbered 0))).generator.ssrc = 7 ∧
      (Runs.final step (start 7 .video) (List.replicate (n + 1) (numbered 0))).reception =
        some { first := 0, highest := 0, received := n + 1 } := by
  have hssrc (s : Session) (h : s.generator.ssrc = 7) :
      (s.step (numbered 0)).1.generator.ssrc = 7 :=
    (handle_ssrc s.generator { number := 0, packet := { header := { ssrc := 7 } } }).trans h
  induction n with
  | zero => exact ⟨rfl, rfl⟩
  | succ n ih =>
    obtain ⟨hs, hr⟩ := ih
    rw [List.replicate_succ', Runs.final_append]
    refine ⟨hssrc _ hs, ?_⟩
    have hcount := count_numbered hs hr 0
    have hunwrap : unwrap 4095 0 0 = 0 := unwrap_eq (by decide) (by omega) (by omega)
    refine hcount.trans (congrArg some ?_)
    unfold Reception.receive
    simp [hunwrap]

theorem sound_packets (n : ℕ) :
    Sound (Runs.final step (start 7 .video) (List.replicate n (numbered 0))) := by
  induction n with
  | zero => exact Sound.start 7 .video
  | succ n ih =>
    rw [List.replicate_succ', Runs.final_append]
    exact ih.packet ..

theorem steps_packets {good : Session → RrEvent → Prop} (hgood : ∀ s, good s (numbered 0)) (s : Session)
    (n : ℕ) : Runs.Steps step good s (List.replicate n (numbered 0)) := by
  induction n generalizing s with
  | zero => trivial
  | succ n ih => exact ⟨hgood s, ih _⟩

/-- Packets enough to bring the counter back to zero. -/
theorem not_exact_wrap (n : ℕ) (hn : n + 1 = 2 ^ 32) :
    Runs.Steps step Due (start 7 .video) (List.replicate (n + 1) (numbered 0) ++ [.report {}]) ∧
      ¬ Runs.Steps step Exact (start 7 .video)
        (List.replicate (n + 1) (numbered 0) ++ [.report {}]) := by
  obtain ⟨-, hr⟩ := reception_replicate n
  have hsound := sound_packets (n + 1)
  rw [Runs.steps_append, Runs.steps_append]
  constructor
  · refine ⟨steps_packets (fun _ => trivial) _ _, ⟨_, hr, ?_⟩, trivial⟩
    exact ⟨Nat.succ_pos n, show 0 - 0 + 1 - 0 < 2 ^ 24 by decide, show 0 - 0 + 1 < 2 ^ 32 by decide⟩
  · rintro ⟨-, hexact, -⟩
    obtain ⟨r, hr', hlost, -⟩ := hexact _ rfl
    obtain rfl := Option.some.inj (hr.symm.trans hr')
    unfold Sound at hsound
    rw [hr] at hsound
    have hreceived := hsound.packetsReceived
    have hexpected := hsound.expected
    have hzero : UInt32.ofNat (n + 1) = 0 := by
      rw [hn]
      rfl
    -- the counter is zero again, so that the one packet expected seems lost
    have hnone : Reception.lost { first := 0, highest := 0, received := n + 1 } = 0 :=
      Nat.sub_eq_zero_of_le (Nat.succ_le_succ (Nat.zero_le n))
    rw [hnone] at hlost
    change (BitVec.ofNat 24 (UInt32.toNat _)).toNat = 0 at hlost
    dsimp only at hreceived
    have hone : Reception.expected { first := 0, highest := 0, received := n + 1 } = 1 := rfl
    rw [hexpected, hreceived, hzero, hone] at hlost
    exact absurd hlost (by decide)

/-- The loss in all does not always fit into a report, and after `2 ^ 32` packets the counter of the
packets received begins anew. -/
theorem not_exact :
    (Runs.Steps step Due (start 7 .video) leaps ∧ ¬ Runs.Steps step Exact (start 7 .video) leaps) ∧
      (Runs.Steps step Due (start 7 .video) (List.replicate (2 ^ 32) (numbered 0) ++ [.report {}]) ∧
        ¬ Runs.Steps step Exact (start 7 .video)
          (List.replicate (2 ^ 32) (numbered 0) ++ [.report {}])) :=
  ⟨⟨by decide +kernel, by decide +kernel⟩, not_exact_wrap (2 ^ 32 - 1) rfl⟩

end Session

end KkLicode.Rtp
