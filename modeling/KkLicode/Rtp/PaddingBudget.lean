import KkLicode.Rtp.RtpPaddingGeneratorHandler
import Mathlib.Algebra.BigOperators.Group.List.Basic
import Mathlib.Tactic.Ring

/-! The budget of the padding packets behind a marker. The bytes for one marker are cut
into full padding packets, each with a header, and a last one for what is left. Where
less than a header is left, the size of the last one wraps around. -/

namespace KkLicode.Rtp.RtpPaddingGeneratorHandler

variable {D : Type} (ctx : Context D) (h : RtpPaddingGeneratorHandler) (r : PaddingReading)

/-- The bitrate that padding has to fill. -/
def targetPaddingBitrate : ℤ :=
  h.getTargetBitrate r - max ((r.totalBitrate : ℤ) - r.paddingBitrate) 0

/-- The bytes of padding that a marker is worth. -/
def bytesPerMarker : ℕ :=
  (h.targetPaddingBitrate r).toNat / (max r.markerRate kMinMarkerRate * 8)

/-- A full padding packet with its header. -/
def fullLength : ℕ := kMaxPaddingSize.toNat + h.rtpHeaderLength

/-- The sizes that `onPacketWithMarkerSet` goes through. -/
def paddingSizes : List UInt8 :=
  List.replicate h.numberOfFullPaddingPackets kMaxPaddingSize ++ [h.lastPaddingPacketSize]

/-- The bytes of the packets of these sizes. There is no packet of padding size 0. -/
def attemptedBytes (packet : DataPacket) : ℕ :=
  ((h.paddingSizes.filter (· ≠ 0)).map fun size => (makePaddingPacket packet size).length).sum

/-- The rates are calculated anew. -/
def Due : Prop := kStatsPeriod ≤ r.checkTime - h.lastRateCalculationTime

/-- The last padding packet fits behind the full ones: a header fits, or its size is 0. -/
def LastFits : Prop :=
  h.rtpHeaderLength ≤ h.bytesPerMarker r % h.fullLength ∨
    256 ∣ h.rtpHeaderLength - h.bytesPerMarker r % h.fullLength

instance : Decidable (h.Due r) := inferInstanceAs (Decidable (_ ≤ _))

instance : Decidable (h.LastFits r) := inferInstanceAs (Decidable (_ ∨ _))

variable {h r} {packet : DataPacket}

/-- The sizes stay while padding packets are sent. -/
theorem sendPaddingPacket_paddingSizes (s : Stage RtpPaddingGeneratorHandler D) (ref : ℕ) (size : UInt8)
    (now : UInt64) : (sendPaddingPacket ctx s ref size now).handler.paddingSizes =
      s.handler.paddingSizes := by
  unfold sendPaddingPacket
  dsimp only
  split_ifs <;> rfl

/-- Packets of these sizes are sent, one after the other. -/
theorem onPacketWithMarkerSet_eq (s : Stage RtpPaddingGeneratorHandler D) (ref : ℕ) :
    onPacketWithMarkerSet ctx s r ref =
      let sent := s.handler.paddingSizes.zipIdx.foldl
        (fun s (size, i) => sendPaddingPacket ctx s ref size (r.bucketTime i)) s
      sent.setHandler { sent.handler with scheduledTask := some ref } := by
  have hfull : ∀ n, (List.replicate n kMaxPaddingSize).zipIdx =
      (List.range n).map fun i => (kMaxPaddingSize, i) := by
    intro n
    refine List.ext_getElem (by simp) fun i hi _ => by simp
  have hkeep (l : List ℕ) : ∀ s : Stage RtpPaddingGeneratorHandler D, (l.foldl
      (fun s i => sendPaddingPacket ctx s ref kMaxPaddingSize (r.bucketTime i)) s).handler.paddingSizes =
        s.handler.paddingSizes := by
    induction l with
    | nil => exact fun _ => rfl
    | cons i l ih => exact fun s => (ih _).trans (sendPaddingPacket_paddingSizes ..)
  have hlast := congrArg (·.getLast?) (hkeep (List.range s.handler.numberOfFullPaddingPackets) s)
  simp only [paddingSizes, List.getLast?_concat, Option.some.injEq] at hlast
  simp only [onPacketWithMarkerSet, paddingSizes, List.zipIdx_append, List.foldl_append, hfull,
    List.foldl_map, hlast]
  simp

theorem length_makePaddingPacket (packet : DataPacket) {size : UInt8} (hsize : size ≠ 0) :
    (makePaddingPacket packet size).length = packet.header.headerLength + size.toNat := by
  have hpos : 0 < size.toNat := by
    rw [Nat.pos_iff_ne_zero]
    exact fun hz => hsize (UInt8.toNat_inj.mp hz)
  simp only [DataPacket.length, makePaddingPacket, RtpHeader.headerLength, List.length_append,
    List.length_replicate, List.length_singleton]
  omega

/-- The bytes of `n` full padding packets and a last one. -/
theorem attemptedBytes_eq {n : ℕ} {last : UInt8} (hn : h.numberOfFullPaddingPackets = n)
    (hlast : h.lastPaddingPacketSize = last) :
    h.attemptedBytes packet = n * (packet.header.headerLength + 255) +
      if last = 0 then 0 else packet.header.headerLength + last.toNat := by
  have hmax : kMaxPaddingSize ≠ 0 := by decide
  rw [attemptedBytes, paddingSizes, hn, hlast, List.filter_append, List.map_append, List.sum_append,
    List.filter_replicate_of_pos (by simpa using hmax), List.map_replicate, List.sum_replicate,
    nsmul_eq_mul, Nat.cast_id, length_makePaddingPacket packet hmax]
  congr 1
  split_ifs with hz
  · simp [hz]
  · simp [hz, length_makePaddingPacket packet hz]

/-- Nothing is attempted where padding has nothing to fill. -/
theorem recalculatePaddingRate_none (hdue : h.Due r) (ht : h.targetPaddingBitrate r ≤ 0) :
    (h.recalculatePaddingRate r).numberOfFullPaddingPackets = 0 ∧
      (h.recalculatePaddingRate r).lastPaddingPacketSize = 0 := by
  have ht' : (h.getTargetBitrate r : ℤ) - max ((r.totalBitrate : ℤ) - r.paddingBitrate) 0 ≤ 0 := ht
  rw [recalculatePaddingRate, if_neg (not_lt.mpr hdue)]
  simp only [if_pos ht']
  exact ⟨trivial, trivial⟩

/-- The bytes for a marker are divided by the length of a full packet; the header is taken
from the rest. -/
theorem recalculatePaddingRate_some (hdue : h.Due r) (ht : 0 < h.targetPaddingBitrate r) :
    (h.recalculatePaddingRate r).numberOfFullPaddingPackets = h.bytesPerMarker r / h.fullLength ∧
      (h.recalculatePaddingRate r).lastPaddingPacketSize =
        .ofInt ((h.bytesPerMarker r % h.fullLength : ℕ) - h.rtpHeaderLength) := by
  have ht' : ¬(h.getTargetBitrate r : ℤ) - max ((r.totalBitrate : ℤ) - r.paddingBitrate) 0 ≤ 0 :=
    not_le.mpr ht
  rw [recalculatePaddingRate, if_neg (not_lt.mpr hdue)]
  simp only [if_neg ht']
  exact ⟨rfl, rfl⟩

theorem toNat_ofInt (x : ℤ) : (UInt8.ofInt x).toNat = (x % 256).toNat := by
  simp [UInt8.ofInt]
  omega

/-- A last padding packet whose header fits takes all the rest; otherwise its size wraps around
and it takes more, if it is there at all. -/
theorem last_le_iff {header rest : ℕ} (hrest : rest < 255 + header) :
    (if UInt8.ofInt (rest - header) = 0 then 0
      else header + (UInt8.ofInt ((rest : ℤ) - header)).toNat) ≤ rest ↔
      header ≤ rest ∨ 256 ∣ header - rest := by
  have hzero : UInt8.ofInt ((rest : ℤ) - header) = 0 ↔ (((rest : ℤ) - header) % 256).toNat = 0 := by
    rw [← toNat_ofInt, ← UInt8.toNat_inj]
    rfl
  rw [toNat_ofInt]
  split_ifs with hz
  · rw [hzero] at hz
    simp only [Nat.zero_le, true_iff]
    omega
  · rw [hzero] at hz
    omega

/-- The padding packets behind a marker stay within its bytes if and only if there is nothing
to fill or the last one fits behind the full ones. -/
theorem attemptedBytes_le_iff (h : RtpPaddingGeneratorHandler) (r : PaddingReading) (packet : DataPacket)
    (hdue : h.Due r) (hheader : packet.header.headerLength = h.rtpHeaderLength) :
    (h.recalculatePaddingRate r).attemptedBytes packet ≤ h.bytesPerMarker r ↔
      h.targetPaddingBitrate r ≤ 0 ∨ h.LastFits r := by
  rcases le_or_gt (h.targetPaddingBitrate r) 0 with ht | ht
  · obtain ⟨hn, hlast⟩ := recalculatePaddingRate_none hdue ht
    rw [attemptedBytes_eq hn hlast]
    simp [ht]
  · obtain ⟨hn, hlast⟩ := recalculatePaddingRate_some hdue ht
    have hfull : packet.header.headerLength + 255 = h.fullLength := by
      rw [hheader, fullLength, Nat.add_comm]
      rfl
    have hrest : h.bytesPerMarker r % h.fullLength < 255 + h.rtpHeaderLength :=
      Nat.mod_lt _ (by rw [fullLength]; exact Nat.add_pos_left (by decide) _)
    have hdiv := Nat.div_add_mod' (h.bytesPerMarker r) h.fullLength
    rw [attemptedBytes_eq hn hlast, hfull, hheader, or_iff_right (not_le.mpr ht), LastFits,
      ← last_le_iff hrest]
    omega

/-- A handler with nothing but its start. -/
def fresh : RtpPaddingGeneratorHandler := {}

/-- A tenth of a second after the start, with media at the given bitrate. -/
def mediaAt (bitrate : ℕ) : PaddingReading :=
  { checkTime := kStatsPeriod, calculationTime := kStatsPeriod, totalBitrate := bitrate }

/-- With 10000 bits to fill there are 416 bytes for each of three markers: a full packet and one
with 137 bytes of padding. -/
theorem attemptedBytes_le_iff_full :
    (fresh.recalculatePaddingRate (mediaAt 290000)).attemptedBytes {} ≤
      fresh.bytesPerMarker (mediaAt 290000) :=
  (attemptedBytes_le_iff fresh (mediaAt 290000) {} (by decide) rfl).mpr (.inr (by decide))

/-- Ten bytes are not enough for a header, and the last packet has 254 bytes of padding. -/
theorem not_attemptedBytes_le : ¬∀ (h : RtpPaddingGeneratorHandler) (r : PaddingReading)
    (packet : DataPacket), h.Due r → packet.header.headerLength = h.rtpHeaderLength →
      (h.recalculatePaddingRate r).attemptedBytes packet ≤ h.bytesPerMarker r := by
  intro h
  have hle := h fresh (mediaAt 299760) {} (by decide) rfl
  exact absurd hle (by decide +kernel)

end KkLicode.Rtp.RtpPaddingGeneratorHandler
