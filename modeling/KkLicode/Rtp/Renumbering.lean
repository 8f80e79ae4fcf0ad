import KkLicode.Rtp.PaddingStream
import KkLicode.Rtp.RtpTrackMuteHandler
import KkLicode.Rtp.SlideShowStream

/-! The renumbering handlers one behind the other, as `initializePipeline` puts
them: the track mute handler writes to the slideshow handler, and that one to the
padding generator. Each of them gives consecutive numbers to the next. -/

namespace KkLicode.Rtp

open Base.Streams

/-- The padding generator, what it wrote, and whose packets it was given. -/
structure Downstream where
  padding : RtpPaddingGeneratorHandler := {}
  calls : ℕ := 0
  given : List Origin := []
  out : Written := []

/-- The write side of the three handlers, with the packets they share. -/
structure Path where
  mute : RtpTrackMuteHandler := {}
  slideShow : RtpSlideShowHandler := {}
  downstream : Downstream := {}
  packets : Packets := {}

/-- What happens to the handlers. -/
inductive Event where
  | packet (packet : DataPacket) (reading : SlideShowReading)
  | muteAudio (active : Bool)
  | muteVideo (active : Bool)
  | setSlideShowMode (active : Bool) (now : ℤ)
  | notifyPadding (paddingEnabled : Bool) (maxVideoBw : ℕ) (now : ℤ)
  | paddingTimer (reading : PaddingReading)

namespace Path

/-- The context of the slideshow handler. The `n`th packet is written under the reading `env n`. -/
def writePadding (env : ℕ → PaddingReading) : Context Downstream := fun b packets origin ref =>
  let s := RtpPaddingGeneratorHandler.write record ⟨b.padding, b.out, packets⟩ (env b.calls) ref
  ({ padding := s.handler, calls := b.calls + 1, given := b.given ++ [origin], out := s.next },
    s.packets)

/-- The context of the mute handler. -/
def writeSlideShow (env : ℕ → PaddingReading) (r : SlideShowReading) :
    Context (RtpSlideShowHandler × Downstream) := fun d packets _ ref =>
  let s := RtpSlideShowHandler.write (writePadding env) ⟨d.1, d.2, packets⟩ r ref
  ((s.handler, s.next), s.packets)

def step (env : ℕ → PaddingReading) (p : Path) : Event → Path
  | .packet packet r =>
    let (packets, ref) := p.packets.alloc packet
    let s := RtpTrackMuteHandler.write (writeSlideShow env r)
      ⟨p.mute, (p.slideShow, p.downstream), packets⟩ ref
    { mute := s.handler, slideShow := s.next.1, downstream := s.next.2, packets := s.packets }
  | .muteAudio active => { p with mute := p.mute.muteAudio active }
  | .muteVideo active => { p with mute := p.mute.muteVideo active }
  | .setSlideShowMode active now => { p with slideShow := p.slideShow.setSlideShowMode active now }
  | .notifyPadding paddingEnabled maxVideoBw now =>
    { p with downstream := { p.downstream with
        padding := p.downstream.padding.notifyUpdate paddingEnabled maxVideoBw now } }
  | .paddingTimer r =>
    let s := RtpPaddingGeneratorHandler.onTimer record
      ⟨p.downstream.padding, p.downstream.out, p.packets⟩ r
    { p with downstream := { p.downstream with padding := s.handler, out := s.next }, packets := s.packets }

/-- The handlers after the events, when they were made at the time `now`. -/
def run (env : ℕ → PaddingReading) (now : ℤ) (events : List Event) : Path :=
  events.foldl (step env) { slideShow := { lastKeyframeSentTime := now } }

/-- The video packets come in order and without loss; `c` is the number before. -/
def Lossless : Option UInt16 → List Event → Prop
  | _, [] => True
  | c, .packet p _ :: events =>
    if p.isVideo then Follows c p.header.seqNumber ∧ Lossless (some p.header.seqNumber) events
    else Lossless c events
  | c, _ :: events => Lossless c events

instance Lossless.decidable : ∀ c events, Decidable (Lossless c events)
  | _, [] => isTrue trivial
  | c, .packet p _ :: events =>
    haveI := Lossless.decidable (some p.header.seqNumber) events
    haveI := Lossless.decidable c events
    inferInstanceAs (Decidable (if p.isVideo then
      Follows c p.header.seqNumber ∧ Lossless (some p.header.seqNumber) events
      else Lossless c events))
  | c, .muteAudio _ :: events => Lossless.decidable c events
  | c, .muteVideo _ :: events => Lossless.decidable c events
  | c, .setSlideShowMode _ _ :: events => Lossless.decidable c events
  | c, .notifyPadding _ _ _ :: events => Lossless.decidable c events
  | c, .paddingTimer _ :: events => Lossless.decidable c events

/-! ### The contexts carry the stream -/

variable (env : ℕ → PaddingReading) {c : Option UInt16}

/-- The padding generator was last given the number `c`. -/
def Pads (c : Option UInt16) (d : Downstream) (packets : Packets) : Prop :=
  RtpPaddingGeneratorHandler.Between d.padding d.out packets c

theorem writePadding_carries : Carries (writePadding env) Pads where
  keeps d packets _ ref :=
    RtpPaddingGeneratorHandler.write_extends ⟨d.padding, d.out, packets⟩ (env d.calls) ref
  mono h he := ⟨h.padding, fun ref hr => (h.task ref hr).mono he⟩
  video {_ d packets} _ {_} h hv hx :=
    RtpPaddingGeneratorHandler.write_video (s := ⟨d.padding, d.out, packets⟩) (env d.calls) hv h hx
  other {_ d packets} _ {_} h hv :=
    RtpPaddingGeneratorHandler.write_other (s := ⟨d.padding, d.out, packets⟩) (env d.calls) hv h

/-- The slideshow handler was last given the number `c`. -/
def Slides (c : Option UInt16) (d : RtpSlideShowHandler × Downstream) (packets : Packets) : Prop :=
  RtpSlideShowHandler.Sliding Downstream.given Pads ⟨d.1, d.2, packets⟩ c

theorem writeSlideShow_takes (r : SlideShowReading) : Takes (writeSlideShow env r) Slides where
  mono h he := RtpSlideShowHandler.Sliding.extend (writePadding_carries env) h he
  video {_ d packets} _ {_} h hv hx := (RtpSlideShowHandler.write_video (s := ⟨d.1, d.2, packets⟩)
    (writePadding_carries env) (fun _ _ _ _ => rfl) h r hv hx).1
  other {_ d packets} _ {_} h hv := (RtpSlideShowHandler.write_other (s := ⟨d.1, d.2, packets⟩)
    (writePadding_carries env) (fun _ _ _ _ => rfl) h r hv).1

/-! ### Runs -/

/-- Video packets with numbers up to `c` have come in. -/
def Flowing (p : Path) (c : Option UInt16) : Prop :=
  RtpTrackMuteHandler.Hears Slides ⟨p.mute, (p.slideShow, p.downstream), p.packets⟩ c

theorem Flowing.start (now : ℤ) : Flowing { slideShow := { lastKeyframeSentTime := now } } none := by
  refine ⟨none, TrackMuteInfo.Muting.empty, fun _ => ⟨none, ?_, ?_, ?_⟩, ?_⟩
  · exact SequenceNumberTranslator.Streaming.empty
  · exact RtpPaddingGeneratorHandler.Between.empty
  · simp
  · exact RtpSlideShowHandler.Keeps.empty _ now

theorem Flowing.alloc {p : Path} (h : Flowing p c) (packet : DataPacket) :
    RtpTrackMuteHandler.Hears Slides
      ⟨p.mute, (p.slideShow, p.downstream), (p.packets.alloc packet).1⟩ c := by
  obtain ⟨o, hm, hs⟩ := h
  exact ⟨o, hm, (writeSlideShow_takes (fun _ => {}) {}).mono hs (Packets.extends_alloc _ _)⟩

/-- A packet comes in. -/
theorem Flowing.packet {p : Path} (h : Flowing p c) {packet : DataPacket}
    (hv : packet.isVideo = true) (hx : Follows c packet.header.seqNumber) (r : SlideShowReading) :
    Flowing (p.step env (.packet packet r)) (some packet.header.seqNumber) := by
  have hp := Packets.alloc_packet p.packets packet
  have hs := RtpTrackMuteHandler.write_video (writeSlideShow_takes env r) (h.alloc packet)
    ⟨Nat.lt_succ_self p.packets.count, (congrArg _ hp).trans hv⟩ (by exact hp.symm ▸ hx)
  change RtpTrackMuteHandler.Hears Slides _
    (some ((p.packets.alloc packet).1.packet (p.packets.alloc packet).2).header.seqNumber) at hs
  rw [hp] at hs
  exact hs

theorem Flowing.packet_other {p : Path} (h : Flowing p c) {packet : DataPacket}
    (hv : packet.isVideo = false) (r : SlideShowReading) :
    Flowing (p.step env (.packet packet r)) c :=
  RtpTrackMuteHandler.write_other (writeSlideShow_takes env r) (h.alloc packet)
    ((congrArg _ (Packets.alloc_packet p.packets packet)).trans hv)

/-- Nothing but a packet moves the stream that comes in. -/
theorem Flowing.step {p : Path} (h : Flowing p c) {e : Event} {events : List Event}
    (hl : Lossless c (e :: events)) : ∃ c', Flowing (p.step env e) c' ∧ Lossless c' events := by
  obtain ⟨o, hm, hs⟩ := h
  cases e with
  | packet packet r =>
    rw [Lossless] at hl
    split_ifs at hl with hv
    · exact ⟨_, Flowing.packet env ⟨o, hm, hs⟩ hv hl.1 r, hl.2⟩
    · exact ⟨c, Flowing.packet_other env ⟨o, hm, hs⟩ (by simpa using hv) r, hl⟩
  | muteAudio active => exact ⟨c, ⟨o, hm, hs⟩, hl⟩
  | muteVideo active => exact ⟨c, ⟨o, hm.muteTrack active, hs⟩, hl⟩
  | setSlideShowMode active now =>
    exact ⟨c, ⟨o, hm, RtpSlideShowHandler.setSlideShowMode_sliding hs active now⟩, hl⟩
  | notifyPadding paddingEnabled maxVideoBw now =>
    refine ⟨c, ⟨o, hm, fun hf => ?_, hs.keeps⟩, hl⟩
    obtain ⟨o', h1, h2, h3⟩ := hs.showing hf
    exact ⟨o', h1, RtpPaddingGeneratorHandler.notifyUpdate_between h2 paddingEnabled maxVideoBw now, h3⟩
  | paddingTimer r =>
    have he := RtpPaddingGeneratorHandler.onTimer_extends
      ⟨p.downstream.padding, p.downstream.out, p.packets⟩ r
    refine ⟨c, ⟨o, hm, fun hf => ?_, hs.keeps.imp fun _ hv => hv.mono he⟩, hl⟩
    obtain ⟨o', h1, h2, h3⟩ := hs.showing hf
    exact ⟨o', h1, RtpPaddingGeneratorHandler.onTimer_between
      (s := ⟨p.downstream.padding, p.downstream.out, p.packets⟩) r h2, h3⟩

theorem Flowing.run {p : Path} (h : Flowing p c) {events : List Event} (hl : Lossless c events) :
    ∃ c', Flowing (events.foldl (Path.step env) p) c' := by
  induction events generalizing p c with
  | nil => exact ⟨c, h⟩
  | cons e events ih =>
    obtain ⟨c', h', hl'⟩ := h.step env hl
    exact ih h' hl'

/-- The video packets that leave the last handler carry consecutive numbers. -/
theorem numbers_consecutive (env : ℕ → PaddingReading) (now : ℤ) (events : List Event)
    (hl : Lossless none events) (hs : FewOwn 0 (run env now events).downstream.given)
    (hp : FewOwn 0 (run env now events).downstream.out.origins) :
    Consecutive (run env now events).downstream.out.numbers := by
  obtain ⟨c, o, -, hslides⟩ := (Flowing.start now).run env hl
  obtain ⟨o', ho⟩ := hslides.showing hs
  exact chainFrom_none_iff.mp (ho.behind.padding hp).chain

/-- Twelve events: padding, a stored keyframe that is sent again, and a mute, across the wrap. -/
def sampleEvents : List Event :=
  let packet : ℕ → UInt32 → Bool → Bool → DataPacket := fun n timestamp isKeyframe marker =>
    { header := { seqNumber := .ofNat n, timestamp := timestamp, marker := marker }
      isKeyframe := isKeyframe }
  let vp8 : SlideShowReading := { codec := some "VP8" }
  [.notifyPadding true 0 0, .packet (packet 65534 100 true false) vp8,
    .packet (packet 65535 100 false true) vp8, .setSlideShowMode true 0,
    .packet (packet 0 200 true true) vp8, .paddingTimer { bucketTime := fun _ => 7000000 },
    .packet (packet 1 300 false true) { vp8 with resendTime := 6000000000 }, .muteVideo true,
    .packet (packet 2 300 false true) vp8, .setSlideShowMode false 0, .muteVideo false,
    .packet (packet 3 300 false true) vp8]

/-- A clock that has gone on by 200 ms at each packet, and an estimation of 10 kbps. -/
def sampleReading (i : ℕ) : PaddingReading where
  checkTime := 200000000 * (i + 1)
  calculationTime := 200000000 * (i + 1)
  senderBitrateEstimation := some 10000
  bucketTime j := 1000000 * .ofNat (i + 1) + .ofNat j

theorem numbers_consecutive_sample :
    Consecutive (run sampleReading 0 sampleEvents).downstream.out.numbers ∧
      (run sampleReading 0 sampleEvents).downstream.out.numbers.length = 15 :=
  ⟨numbers_consecutive _ _ _ (by decide) (by decide) (by decide), by decide⟩

end Path

end KkLicode.Rtp
