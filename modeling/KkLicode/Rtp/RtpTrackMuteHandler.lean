import KkLicode.Base.Serial
import KkLicode.Base.Streams
import KkLicode.Rtp.Stage

/-! `RtpTrackMuteHandler`, write side. While a track is muted its packets are
dropped; when it is heard again the numbers go on behind the last one sent. -/

namespace KkLicode.Rtp

structure TrackMuteInfo where
  lastOriginalSeqNum : ℤ := -1
  seqNumOffset : UInt16 := 0
  lastSentSeqNum : UInt16 := 0
  muteIsActive : Bool := false
  deriving DecidableEq, Repr

structure RtpTrackMuteHandler where
  audioInfo : TrackMuteInfo := {}
  videoInfo : TrackMuteInfo := {}
  deriving DecidableEq, Repr

/-- `muteTrack`. For the video track a PLI is sent upstream when it is muted. -/
def TrackMuteInfo.muteTrack (info : TrackMuteInfo) (active : Bool) : TrackMuteInfo :=
  if info.muteIsActive = active then info
  else if active then { info with muteIsActive := active }
  else { info with
    muteIsActive := active
    seqNumOffset := .ofInt (info.lastOriginalSeqNum - info.lastSentSeqNum.toNat) }

/-- `handlePacket`, with the number the packet is forwarded with. -/
def TrackMuteInfo.handlePacket (info : TrackMuteInfo) (seqNumber : UInt16) :
    TrackMuteInfo × Option UInt16 :=
  let info := { info with lastOriginalSeqNum := seqNumber.toNat }
  if info.muteIsActive then (info, none)
  else
    let sent := seqNumber - info.seqNumOffset
    ({ info with lastSentSeqNum := sent }, some sent)

namespace RtpTrackMuteHandler

variable {D : Type} (ctx : Context D)

def muteAudio (h : RtpTrackMuteHandler) (active : Bool) : RtpTrackMuteHandler :=
  { h with audioInfo := h.audioInfo.muteTrack active }

def muteVideo (h : RtpTrackMuteHandler) (active : Bool) : RtpTrackMuteHandler :=
  { h with videoInfo := h.videoInfo.muteTrack active }

/-- Forward the packet, if it was not dropped, with its new number. Without an offset the header
is not touched, and the number is the same. -/
def forward (s : Stage RtpTrackMuteHandler D) (ref : ℕ) (offset : UInt16) (sent : Option UInt16) :
    Stage RtpTrackMuteHandler D :=
  match sent with
  | none => s
  | some sent =>
    (if offset > 0 then s.modify ref (·.setSeqNumber sent) else s).fireWrite ctx .source ref

def write (s : Stage RtpTrackMuteHandler D) (ref : ℕ) : Stage RtpTrackMuteHandler D :=
  let packet := s.packets.packet ref
  if packet.rtcp then s.fireWrite ctx .other ref
  else match packet.type with
    | .audio =>
      let r := s.handler.audioInfo.handlePacket packet.header.seqNumber
      forward ctx (s.setHandler { s.handler with audioInfo := r.1 }) ref
        s.handler.audioInfo.seqNumOffset r.2
    | .video =>
      let r := s.handler.videoInfo.handlePacket packet.header.seqNumber
      forward ctx (s.setHandler { s.handler with videoInfo := r.1 }) ref
        s.handler.videoInfo.seqNumOffset r.2
    | .other => s.fireWrite ctx .other ref

end RtpTrackMuteHandler

/-! ### The numbers of a track -/

namespace TrackMuteInfo

open Base.Serial Base.Streams

/-- The track received numbers up to `c` and forwarded numbers up to `o`. -/
structure Muting (info : TrackMuteInfo) (c o : Option UInt16) : Prop where
  last : ∀ q ∈ c, info.lastOriginalSeqNum = q.toNat
  sent : ∀ p ∈ o, info.lastSentSeqNum = p ∧ ∃ q ∈ c,
    (info.muteIsActive = false → info.seqNumOffset = q - p)

theorem Muting.empty : Muting {} none none where
  last := by simp
  sent := by simp

theorem Muting.muteTrack {info : TrackMuteInfo} {c o : Option UInt16} (h : Muting info c o)
    (active : Bool) : Muting (info.muteTrack active) c o := by
  unfold TrackMuteInfo.muteTrack
  split_ifs with h1 h2
  · exact h
  · refine ⟨h.last, fun p hp => ?_⟩
    obtain ⟨hs, q, hq, -⟩ := h.sent p hp
    exact ⟨hs, q, hq, by simp [h2]⟩
  · refine ⟨h.last, fun p hp => ?_⟩
    obtain ⟨hs, q, hq, -⟩ := h.sent p hp
    refine ⟨hs, q, hq, fun _ => ?_⟩
    show UInt16.ofInt (info.lastOriginalSeqNum - info.lastSentSeqNum.toNat) = q - p
    rw [h.last q hq, hs, ofInt_sub, ofInt_toNat, ofInt_toNat]

/-- A packet in order is dropped, or goes on behind the last one sent. -/
theorem Muting.handlePacket {info : TrackMuteInfo} {c o : Option UInt16} (h : Muting info c o)
    {x : UInt16} (hx : Follows c x) :
    ((info.handlePacket x).2 = none ∧ Muting (info.handlePacket x).1 (some x) o) ∨
      ∃ y, (info.handlePacket x).2 = some y ∧ Follows o y ∧
        Muting (info.handlePacket x).1 (some x) (some y) := by
  unfold TrackMuteInfo.handlePacket
  cases hm : info.muteIsActive with
  | true =>
    left
    exact ⟨by simp, by simp, fun p hp => ⟨(h.sent p hp).1, x, rfl, by simp⟩⟩
  | false =>
    right
    refine ⟨x - info.seqNumOffset, by simp, fun p hp => ?_, by simp, fun p hp => ?_⟩
    · obtain ⟨-, q, hq, ho⟩ := h.sent p hp
      rw [ho hm, hx q hq]
      grind
    · rw [← Option.some.inj hp]
      refine ⟨by simp, x, rfl, fun _ => ?_⟩
      show info.seqNumOffset = x - (x - info.seqNumOffset)
      grind

theorem handlePacket_sent {info : TrackMuteInfo} {x y : UInt16}
    (h : (info.handlePacket x).2 = some y) : y = x - info.seqNumOffset := by
  unfold TrackMuteInfo.handlePacket at h
  dsimp only at h
  split_ifs at h
  exact (Option.some.inj h).symm

end TrackMuteInfo

namespace RtpTrackMuteHandler

open Base.Streams

variable {D : Type} {ctx : Context D} {I : Option UInt16 → D → Packets → Prop}
  {s : Stage RtpTrackMuteHandler D} {c : Option UInt16}

/-- The handler was given video numbers up to `c`, and what lies behind it expects the one that the
handler forwards next. -/
def Hears (I : Option UInt16 → D → Packets → Prop) (s : Stage RtpTrackMuteHandler D)
    (c : Option UInt16) : Prop :=
  ∃ o, s.handler.videoInfo.Muting c o ∧ I o s.next s.packets

theorem forward_handler (s : Stage RtpTrackMuteHandler D) (ref : ℕ) (offset : UInt16)
    (sent : Option UInt16) : (forward ctx s ref offset sent).handler = s.handler := by
  cases sent with
  | none => rfl
  | some y =>
    unfold forward
    dsimp only
    split_ifs <;> rfl

theorem forward_video (ht : Takes ctx I) (hi : I c s.next s.packets) {h : RtpTrackMuteHandler}
    {ref : ℕ} (hv : s.packets.Video ref) {offset x y : UInt16}
    (hx : (s.packets.packet ref).header.seqNumber = x) (hy : y = x - offset) (hf : Follows c y) :
    I (some y) (forward ctx (s.setHandler h) ref offset (some y)).next
      (forward ctx (s.setHandler h) ref offset (some y)).packets := by
  unfold forward
  dsimp only
  split_ifs with ho
  · have he := Packets.extends_setSeqNumber s.packets ref y
    have := ht.video .source (ht.mono hi he) (hv.mono he) (by rw [Packets.modify_packet]; exact hf)
    rw [Packets.modify_packet] at this
    exact this
  · -- without an offset the header has the number already
    have hxy : (s.packets.packet ref).header.seqNumber = y := by
      have : offset = 0 := by simpa using ho
      rw [hx, hy, this, UInt16.sub_zero]
    have := ht.video .source hi hv (hxy ▸ hf)
    rw [hxy] at this
    exact this

theorem forward_other (ht : Takes ctx I) (hi : I c s.next s.packets) {h : RtpTrackMuteHandler}
    {ref : ℕ} (hv : (s.packets.packet ref).isVideo = false) (offset : UInt16) (sent : Option UInt16) :
    I c (forward ctx (s.setHandler h) ref offset sent).next
      (forward ctx (s.setHandler h) ref offset sent).packets := by
  cases sent with
  | none => exact hi
  | some y =>
    unfold forward
    dsimp only
    split_ifs
    · refine ht.other .source (ht.mono hi (Packets.extends_setSeqNumber s.packets ref y)) ?_
      simpa [Stage.modify, Stage.setHandler] using hv
    · exact ht.other .source hi hv

/-- A video packet of the stream. -/
theorem write_video (ht : Takes ctx I) (hs : Hears I s c) {ref : ℕ} (hv : s.packets.Video ref)
    (hx : Follows c (s.packets.packet ref).header.seqNumber) :
    Hears I (write ctx s ref) (some (s.packets.packet ref).header.seqNumber) := by
  obtain ⟨o, hm, hi⟩ := hs
  have hv' := hv.2
  simp only [DataPacket.isVideo, Bool.and_eq_true, decide_eq_true_eq, Bool.not_eq_true'] at hv'
  unfold write
  simp only [hv'.1, hv'.2, Bool.false_eq_true, if_false]
  rcases hm.handlePacket hx with ⟨hn, hm⟩ | ⟨y, hy, hfo, hm⟩
  · rw [hn]
    exact ⟨o, hm, hi⟩
  · rw [hy]
    refine ⟨some y, ?_, ?_⟩
    · rw [forward_handler]
      exact hm
    · exact forward_video ht hi hv rfl (TrackMuteInfo.handlePacket_sent hy) hfo

/-- Another packet passes by or is dropped. -/
theorem write_other (ht : Takes ctx I) (hs : Hears I s c) {ref : ℕ}
    (hv : (s.packets.packet ref).isVideo = false) : Hears I (write ctx s ref) c := by
  obtain ⟨o, hm, hi⟩ := hs
  unfold write
  dsimp only
  split_ifs with hr
  · exact ⟨o, hm, ht.other .other hi hv⟩
  · cases hp : (s.packets.packet ref).type with
    | audio =>
      refine ⟨o, ?_, ?_⟩
      · dsimp only
        rw [forward_handler]
        exact hm
      · exact forward_other ht hi hv _ _
    | video => simp [DataPacket.isVideo, hp, hr] at hv
    | other => exact ⟨o, hm, ht.other .other hi hv⟩

end RtpTrackMuteHandler

end KkLicode.Rtp
