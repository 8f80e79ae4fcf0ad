import KkLicode.Rtp.QualityFilterHandler
import KkLicode.Rtp.TranslatorStream

/-! The output of `QualityFilterHandler` is one continuous stream. Packets of the
SSRC let through last are counted by the translator, also those that are dropped,
until several SSRCs were received; from then on a packet the spatial filter drops
leaves a hole. A hole is harmless when another SSRC is let through before the
stream comes back, since the numbering then starts again. -/

namespace KkLicode.Rtp.QualityFilterHandler

open Base Base.Streams SequenceNumberTranslator

/-- A packet that arrives, with what the handler reads at that moment. -/
structure Arrival where
  packet : DataPacket
  reading : Reading := {}
  deriving DecidableEq, Repr

/-- A call of `write`, with the video packets it forwards once the video is known as scalable. -/
def step (h : QualityFilterHandler) (a : Arrival) : QualityFilterHandler × List DataPacket :=
  let r := h.write a.reading a.packet
  (r.1, if r.1.isScalable then (written r.2).filter (·.isVideo) else [])

/-- The packet is handled as part of a scalable video. -/
def handles (h : QualityFilterHandler) (a : Arrival) : Bool :=
  (h.detectVideoScalability a.packet).isScalable && h.enabled && a.packet.isVideo

/-- The state in which the spatial filter decides about the packet. -/
def selected (h : QualityFilterHandler) (a : Arrival) : QualityFilterHandler :=
  ((h.detectVideoScalability a.packet).selectLayers a.reading a.packet).1

/-- The packet is let through by the spatial filter. -/
def passes (h : QualityFilterHandler) (a : Arrival) : Bool :=
  h.handles a && a.packet.belongsToSpatialLayer (h.selected a).targetSpatialLayer

/-! ### What the parts of `write` change -/

variable (h : QualityFilterHandler)

theorem detectVideoScalability_eq (p : DataPacket) : ∃ b c, h.detectVideoScalability p =
    { h with isScalable := b, qualityManagerEnabled := c } ∧ (h.isScalable = true → b = true) := by
  unfold detectVideoScalability
  split_ifs with h1 h2
  · exact ⟨h.isScalable, h.qualityManagerEnabled, rfl, id⟩
  · exact ⟨true, true, rfl, fun _ => rfl⟩
  · exact ⟨h.isScalable, h.qualityManagerEnabled, rfl, id⟩

theorem checkLayers_eq (r : Reading) : ∃ f c s, (h.checkLayers r).1 = { h with
      futureSpatialLayer := f, changingSpatialLayer := c, timeChangeStarted := s
      targetTemporalLayer := r.temporalLayer } ∧ written (h.checkLayers r).2 = [] := by
  unfold checkLayers
  split_ifs
  · exact ⟨_, _, _, rfl, rfl⟩
  · exact ⟨_, _, _, rfl, rfl⟩

theorem changeSpatialLayer_eq (r : Reading) (p : DataPacket) : ∃ f l,
    (h.changeSpatialLayerOnKeyframeReceived r p).1 =
      { h with futureSpatialLayer := f, targetSpatialLayer := l } ∧
    written (h.changeSpatialLayerOnKeyframeReceived r p).2 = [] := by
  unfold changeSpatialLayerOnKeyframeReceived
  split_ifs
  · exact ⟨_, _, rfl, rfl⟩
  · exact ⟨_, _, rfl, rfl⟩
  · exact ⟨_, _, rfl, rfl⟩
  · exact ⟨_, _, rfl, rfl⟩

/-- The state at the spatial filter differs from the one before in the layers and in whether
several SSRCs were received. -/
structure Selected (p : DataPacket) (h' : QualityFilterHandler) : Prop where
  translator : h'.translator = h.translator
  lastSSRCReceived : h'.lastSSRCReceived = h.lastSSRCReceived
  enabled : h'.enabled = h.enabled
  videoSinkSSRC : h'.videoSinkSSRC = h.videoSinkSSRC
  isScalable : h'.isScalable = true
  receivingMultipleSSRC : h'.receivingMultipleSSRC =
    (h.receivingMultipleSSRC || (h.lastSSRCReceived ≠ 0 && p.header.ssrc ≠ h.lastSSRCReceived))

theorem selectLayers_spec (hs : h.isScalable = true) (r : Reading) (p : DataPacket) :
    Selected h p (h.selectLayers r p).1 ∧ written (h.selectLayers r p).2 = [] := by
  obtain ⟨f, c, s, he, hw⟩ := h.checkLayers_eq r
  obtain ⟨f', l, he', hw'⟩ := ((h.checkLayers r).1.noteSSRC p.header.ssrc).changeSpatialLayer_eq r p
  refine ⟨?_, by simp only [selectLayers, written_append, hw, hw', List.append_nil]⟩
  simp only [selectLayers]
  rw [he', noteSSRC, he]
  split_ifs with hn
  · exact ⟨rfl, rfl, rfl, rfl, hs, by simp_all⟩
  · exact ⟨rfl, rfl, rfl, rfl, hs, by simp_all⟩

/-- A packet that is handled is a video packet, met in a scalable video. -/
theorem handles_spec {a : Arrival} (hh : h.handles a = true) :
    a.packet.isVideo = true ∧ (h.detectVideoScalability a.packet).isScalable = true ∧
      h.enabled = true := by
  simp only [handles, Bool.and_eq_true] at hh
  exact ⟨hh.2, hh.1.1, hh.1.2⟩

theorem selected_spec {a : Arrival} (hh : h.handles a = true) :
    Selected h a.packet (h.selected a) := by
  obtain ⟨b, c, he, -⟩ := h.detectVideoScalability_eq a.packet
  have hs := (selectLayers_spec _ (h.handles_spec hh).2.1 a.reading a.packet).1
  rw [he] at hs
  rw [selected, he]
  exact ⟨hs.translator, hs.lastSSRCReceived, hs.enabled, hs.videoSinkSSRC, hs.isScalable,
    hs.receivingMultipleSSRC⟩

/-- The numbering follows the SSRC of the packet. -/
theorem followSSRC_spec (p : DataPacket) :
    (h.followSSRC p).lastSSRCReceived = p.header.ssrc ∧
    (h.followSSRC p).translator =
      (if h.lastSSRCReceived = p.header.ssrc then h.translator else h.translator.reset) ∧
    (h.followSSRC p).videoSinkSSRC = h.videoSinkSSRC ∧
    (h.followSSRC p).enabled = h.enabled ∧ (h.followSSRC p).isScalable = h.isScalable ∧
    (h.followSSRC p).receivingMultipleSSRC = h.receivingMultipleSSRC ∧
    (h.followSSRC p).targetTemporalLayer = h.targetTemporalLayer := by
  unfold followSSRC checkSSRCChange
  by_cases hs : h.lastSSRCReceived = p.header.ssrc
  · simp [hs]
  · simp [hs]

/-- A forwarded packet carries the SSRC of the sink and its new number. -/
theorem rewrite_spec (p : DataPacket) (output : UInt16) :
    (h.rewrite p output).2.header.ssrc = h.videoSinkSSRC ∧
    (h.rewrite p output).2.header.seqNumber = output ∧
    (h.rewrite p output).2.isVideo = p.isVideo := by
  simp only [rewrite, updatePictureID]
  split_ifs
  · exact ⟨rfl, rfl, rfl⟩
  · exact ⟨rfl, rfl, rfl⟩
  · exact ⟨rfl, rfl, rfl⟩
  · exact ⟨rfl, rfl, rfl⟩

/-- What a packet that is handled does after the layers were selected. -/
theorem write_handled {a : Arrival} (hh : h.handles a = true) :
    ∃ pli, written pli = [] ∧ h.write a.reading a.packet =
      if a.packet.belongsToSpatialLayer (h.selected a).targetSpatialLayer then
        ((((h.selected a).followSSRC a.packet).writeTemporal a.packet).1,
          pli ++ (((h.selected a).followSSRC a.packet).writeTemporal a.packet).2)
      else ((h.selected a).dropSpatial a.packet, pli) := by
  refine ⟨((h.detectVideoScalability a.packet).selectLayers a.reading a.packet).2,
    (selectLayers_spec _ (h.handles_spec hh).2.1 _ _).2, ?_⟩
  obtain ⟨b, c, he, -⟩ := h.detectVideoScalability_eq a.packet
  simp only [handles, DataPacket.isVideo, Bool.and_eq_true, decide_eq_true_eq,
    Bool.not_eq_true'] at hh
  obtain ⟨⟨hs, hen⟩, ht, hr⟩ := hh
  have hen' : (h.detectVideoScalability a.packet).enabled = true := by rw [he]; exact hen
  rw [write, if_pos (by simp [hs, hen', ht, hr])]
  cases hb : a.packet.belongsToSpatialLayer (h.selected a).targetSpatialLayer with
  | true =>
    simp only [selected] at hb
    simp only [selected, hb]
    rfl
  | false =>
    simp only [selected] at hb
    simp only [selected, hb]
    rfl

theorem write_unhandled {a : Arrival} (hh : h.handles a = false) :
    h.write a.reading a.packet = (h.detectVideoScalability a.packet, [.write a.packet]) := by
  obtain ⟨b, c, he, -⟩ := h.detectVideoScalability_eq a.packet
  have hen : (h.detectVideoScalability a.packet).enabled = h.enabled := by rw [he]
  rw [write, if_neg]
  rintro hc
  simp only [handles, DataPacket.isVideo] at hh
  simp only [Bool.and_eq_true, decide_eq_true_eq, Bool.not_eq_true'] at hc
  obtain ⟨⟨⟨hs, hr⟩, hen'⟩, ht⟩ := hc
  rw [hen] at hen'
  simp [hs, hr, hen', ht] at hh

/-! ### Holes -/

/-- Whether a packet of the SSRC let through last is missing in its numbering after the call. -/
def hole (h : QualityFilterHandler) (holed : Bool) (a : Arrival) : Bool :=
  if !h.handles a then holed
  else if h.passes a then holed && a.packet.header.ssrc = h.lastSSRCReceived
  else holed || ((h.selected a).receivingMultipleSSRC && h.translator.initialized &&
    a.packet.header.ssrc = h.lastSSRCReceived)

/-- The handler together with the hole. -/
def track (s : QualityFilterHandler × Bool) (a : Arrival) :
    (QualityFilterHandler × Bool) × List DataPacket :=
  (((s.1.step a).1, s.1.hole s.2 a), (s.1.step a).2)

/-- A packet is not let through while its SSRC has a hole. -/
def NoReturn (s : QualityFilterHandler × Bool) (a : Arrival) : Prop :=
  s.1.passes a = true → s.2 = true → a.packet.header.ssrc ≠ s.1.lastSSRCReceived

instance (s : QualityFilterHandler × Bool) (a : Arrival) : Decidable (NoReturn s a) :=
  inferInstanceAs (Decidable (_ → _))

/-- The last number of each SSRC after a packet. -/
def advance (cur : UInt32 → Option UInt16) (p : DataPacket) : UInt32 → Option UInt16 :=
  if p.isVideo then Function.update cur p.header.ssrc (some p.header.seqNumber) else cur

/-- Each SSRC delivers its packets in order and without loss, from the numbers `cur` on. -/
def Lossless : (UInt32 → Option UInt16) → List Arrival → Prop
  | _, [] => True
  | cur, a :: l =>
    (a.packet.isVideo = true → Follows (cur a.packet.header.ssrc) a.packet.header.seqNumber) ∧
      Lossless (advance cur a.packet) l

/-- The stream so far ends with `o`; the numbers of the SSRC let through last go on where the
translator stopped, unless there is a hole. -/
structure Continuous (source : UInt32 → Prop) (h : QualityFilterHandler) (holed : Bool)
    (cur : UInt32 → Option UInt16) (o : Option UInt16) : Prop where
  stream : h.translator.Streaming o 0
  enabled : h.enabled = true
  idle : h.isScalable = false → h.translator.initialized = false
  fromSource : h.translator.initialized = true → source h.lastSSRCReceived
  next : h.translator.initialized = true → holed = false →
    cur h.lastSSRCReceived = some h.translator.lastInputSequenceNumber
  counted : holed = true → h.receivingMultipleSSRC = true

variable {h} {source : UInt32 → Prop} {holed : Bool} {cur : UInt32 → Option UInt16}
  {o : Option UInt16}

/-- The translator is asked for the packets of one SSRC in order. -/
theorem Continuous.inOrder (hc : Continuous source h holed cur o) {p : DataPacket}
    (hs : p.header.ssrc = h.lastSSRCReceived) (hh : holed = false)
    (hf : Follows (cur p.header.ssrc) p.header.seqNumber) :
    InOrder h.translator p.header.seqNumber := by
  intro hi
  rw [hs, hc.next hi hh] at hf
  simpa using hf

/-- The stream goes on with the numbers of the packets. -/
structure Continues (sink : UInt32) (o : Option UInt16) (sent : List DataPacket) (o' : Option UInt16) :
    Prop where
  cursor : cursor o (sent.map (·.header.seqNumber)) = o'
  chain : ChainFrom o (sent.map (·.header.seqNumber))
  sink : ∀ q ∈ sent, q.header.ssrc = sink

theorem Continues.nil (sink : UInt32) (o : Option UInt16) : Continues sink o [] o where
  cursor := rfl
  chain := trivial
  sink := by simp

/-- The packet is let through: it is counted or forwarded behind the last one. -/
theorem writeTemporal_spec (hst : h.translator.Streaming o 0) {p : DataPacket}
    (hin : InOrder h.translator p.header.seqNumber) (hv : p.isVideo = true) :
    ∃ o', Continues h.videoSinkSSRC o ((written (h.writeTemporal p).2).filter (·.isVideo)) o' ∧
      (h.writeTemporal p).1.translator.Streaming o' 0 ∧
      ((h.writeTemporal p).1.translator.initialized = true →
        (h.writeTemporal p).1.translator.lastInputSequenceNumber = p.header.seqNumber) ∧
      (h.writeTemporal p).1.lastSSRCReceived = h.lastSSRCReceived ∧
      (h.writeTemporal p).1.enabled = h.enabled ∧
      (h.writeTemporal p).1.isScalable = h.isScalable ∧
      (h.writeTemporal p).1.videoSinkSSRC = h.videoSinkSSRC ∧
      (h.writeTemporal p).1.receivingMultipleSSRC = h.receivingMultipleSSRC := by
  unfold writeTemporal
  split_ifs with ht
  · obtain ⟨hs, -, hi, hl⟩ := hst.skip hin
    exact ⟨o, Continues.nil _ _, hs, fun h' => hl (hi ▸ h'), rfl, rfl, rfl, rfl, rfl⟩
  · obtain ⟨output, hr, hf, hs, -, hl⟩ := hst.forward (by decide) hin
    obtain ⟨h1, h2, h3⟩ := rewrite_spec (h := { h with
      translator := (h.translator.get p.header.seqNumber false).1 }) p output
    simp only [hr, ne_eq, not_true_eq_false, if_false]
    rw [hv] at h3
    refine ⟨some output, ?_, hs, fun _ => hl, rfl, rfl, rfl, rfl, rfl⟩
    simp only [written, List.filterMap_cons, List.filterMap_nil, List.filter_cons, h3, if_true,
      List.filter_nil]
    exact ⟨by simp [h2], by simp [h2, hf], by simpa using h1⟩

/-- The handler of a connection before the first packet; `start` is the clock then. -/
def fresh (sink sourceSSRC : UInt32) (start : ℤ) : QualityFilterHandler :=
  notifyUpdate { timeChangeStarted := start } sink sourceSSRC

theorem Continuous.empty (source : UInt32 → Prop) (sink sourceSSRC : UInt32) (start : ℤ) :
    Continuous source (fresh sink sourceSSRC start) false (fun _ => none) none where
  stream := Streaming.empty
  enabled := rfl
  idle _ := rfl
  fromSource hi := by simp [fresh, notifyUpdate] at hi
  next hi := by simp [fresh, notifyUpdate] at hi
  counted := by simp

theorem advance_of_ne {p : DataPacket} {s : UInt32} (h : p.isVideo = true → p.header.ssrc ≠ s)
    (cur : UInt32 → Option UInt16) : advance cur p s = cur s := by
  unfold advance
  split_ifs with hv
  · exact Function.update_of_ne (h hv).symm _ _
  · rfl

theorem advance_self {p : DataPacket} (h : p.isVideo = true) (cur : UInt32 → Option UInt16) :
    advance cur p p.header.ssrc = some p.header.seqNumber := by
  rw [advance, if_pos h, Function.update_self]

/-- A packet that is not part of a scalable video passes by. -/
theorem Continuous.step_unhandled (hc : Continuous source h holed cur o) {a : Arrival}
    (hh : h.handles a = false) : (h.step a).2 = [] ∧
      (h.step a).1.videoSinkSSRC = h.videoSinkSSRC ∧
      Continuous source (h.step a).1 (h.hole holed a) (advance cur a.packet) o := by
  obtain ⟨b, c, hd, hb⟩ := h.detectVideoScalability_eq a.packet
  have hv : b = true → a.packet.isVideo = false := by
    rintro rfl
    simpa [handles, hd, hc.enabled] using hh
  have hhole : h.hole holed a = holed := by simp [hole, hh]
  rw [hhole, QualityFilterHandler.step, write_unhandled h hh, hd]
  refine ⟨?_, rfl, hc.stream, hc.enabled, fun hs => ?_, hc.fromSource, fun hi hn => ?_, hc.counted⟩
  · cases b with
    | false => rfl
    | true => simp [written, hv rfl]
  · refine hc.idle ?_
    cases hsc : h.isScalable with
    | false => rfl
    | true => exact absurd (hb hsc) (by simpa using hs)
  · -- the translator is in use, so the packet is no video
    have hsc : h.isScalable = true := by
      cases hsc : h.isScalable with
      | false => exact absurd (hc.idle hsc) (by simpa using hi)
      | true => rfl
    have hnv := hv (hb hsc)
    rw [advance_of_ne (by simp [hnv])]
    exact hc.next hi hn

/-- Packets of the SSRC let through last are counted while one SSRC is received. -/
theorem Continuous.ssrc_eq (hsrc : (∀ s, source s → s ≠ 0) ∨ ∀ s s', source s → source s' → s = s')
    (hc : Continuous source h holed cur o) {p : DataPacket} (hs : source p.header.ssrc)
    (hm : (h.receivingMultipleSSRC ||
      (h.lastSSRCReceived ≠ 0 && p.header.ssrc ≠ h.lastSSRCReceived)) = false)
    (hi : h.translator.initialized = true) : p.header.ssrc = h.lastSSRCReceived := by
  have hl := hc.fromSource hi
  rcases hsrc with hsrc | hsrc
  · have := hsrc _ hl
    simp_all
  · exact hsrc _ _ hs hl

/-- A packet the spatial filter drops. -/
theorem Continuous.step_dropped
    (hsrc : (∀ s, source s → s ≠ 0) ∨ ∀ s s', source s → source s' → s = s')
    (hc : Continuous source h holed cur o) {a : Arrival} (hh : h.handles a = true)
    (hp : h.passes a = false) (hs : source a.packet.header.ssrc)
    (hf : Follows (cur a.packet.header.ssrc) a.packet.header.seqNumber) :
    (h.step a).2 = [] ∧ (h.step a).1.videoSinkSSRC = h.videoSinkSSRC ∧
      Continuous source (h.step a).1 (h.hole holed a) (advance cur a.packet) o := by
  have hb : a.packet.belongsToSpatialLayer (h.selected a).targetSpatialLayer = false := by
    simpa [passes, hh] using hp
  obtain ⟨pli, hpli, hw⟩ := h.write_handled hh
  rw [hb, if_neg (by simp)] at hw
  have hsel := h.selected_spec hh
  have hv := (h.handles_spec hh).1
  have hsent : (h.step a).2 = [] := by simp [QualityFilterHandler.step, hw, hpli]
  have hst : (h.step a).1 = (h.selected a).dropSpatial a.packet := by
    rw [QualityFilterHandler.step, hw]
  have hhole : h.hole holed a = (holed || ((h.selected a).receivingMultipleSSRC &&
      h.translator.initialized && a.packet.header.ssrc = h.lastSSRCReceived)) := by
    simp [hole, hh, hp]
  have hm := hsel.receivingMultipleSSRC
  rw [hst, hhole]
  refine ⟨hsent, ?_⟩
  cases hsm : (h.selected a).receivingMultipleSSRC with
  | true =>
    have he : (h.selected a).dropSpatial a.packet = h.selected a := by
      rw [dropSpatial, if_pos hsm]
    rw [he]
    refine ⟨hsel.videoSinkSSRC, by rw [hsel.translator]; exact hc.stream,
      hsel.enabled.trans hc.enabled, by simp [hsel.isScalable], ?_, fun hi hn => ?_, fun _ => hsm⟩
    · rw [hsel.translator, hsel.lastSSRCReceived]
      exact hc.fromSource
    · rw [hsel.translator] at hi ⊢
      simp only [hi, Bool.or_eq_false_iff, Bool.true_and, decide_eq_false_iff_not] at hn
      rw [hsel.lastSSRCReceived, advance_of_ne fun _ => hn.2]
      exact hc.next hi hn.1
  | false =>
    rw [hsm] at hm
    have hholed : holed = false := by
      cases hx : holed with
      | false => rfl
      | true => simp [hc.counted hx] at hm
    have hlast : h.translator.initialized = true → a.packet.header.ssrc = h.lastSSRCReceived :=
      hc.ssrc_eq hsrc hs hm.symm
    have hin : InOrder h.translator a.packet.header.seqNumber :=
      fun hi => hc.inOrder (hlast hi) hholed hf hi
    obtain ⟨hst, -, hi', hl⟩ := hc.stream.skip hin
    have he : (h.selected a).dropSpatial a.packet = { h.selected a with
        translator := (h.translator.get a.packet.header.seqNumber true).1 } := by
      rw [dropSpatial, if_neg (by simp [hsm]), hsel.translator]
    rw [he]
    refine ⟨hsel.videoSinkSSRC, hst, hsel.enabled.trans hc.enabled, by simp [hsel.isScalable],
      fun hi => ?_, fun hi _ => ?_, by simp [hholed]⟩
    · rw [hsel.lastSSRCReceived]
      exact hc.fromSource (hi' ▸ hi)
    · have hi : h.translator.initialized = true := hi' ▸ hi
      rw [hsel.lastSSRCReceived, ← hlast hi, advance_self hv]
      exact congrArg some (hl hi).symm

/-- A packet the spatial filter lets through. -/
theorem Continuous.step_passed (hc : Continuous source h holed cur o) {a : Arrival}
    (hh : h.handles a = true) (hp : h.passes a = true) (hs : source a.packet.header.ssrc)
    (hf : Follows (cur a.packet.header.ssrc) a.packet.header.seqNumber)
    (hr : holed = true → a.packet.header.ssrc ≠ h.lastSSRCReceived) :
    ∃ o', Continues h.videoSinkSSRC o (h.step a).2 o' ∧
      (h.step a).1.videoSinkSSRC = h.videoSinkSSRC ∧
      Continuous source (h.step a).1 (h.hole holed a) (advance cur a.packet) o' := by
  have hb : a.packet.belongsToSpatialLayer (h.selected a).targetSpatialLayer = true := by
    simpa [passes, hh] using hp
  obtain ⟨pli, hpli, hw⟩ := h.write_handled hh
  rw [hb, if_pos rfl] at hw
  have hsel := h.selected_spec hh
  have hv := (h.handles_spec hh).1
  obtain ⟨hfl, hft, hfs, hfe, hfi, hfm, -⟩ := (h.selected a).followSSRC_spec a.packet
  rw [hsel.lastSSRCReceived, hsel.translator] at hft
  -- the numbering goes on, or starts again
  have hnum : ((h.selected a).followSSRC a.packet).translator.Streaming o 0 ∧
      InOrder ((h.selected a).followSSRC a.packet).translator a.packet.header.seqNumber := by
    rw [hft]
    split_ifs with hl
    · have hholed : holed = false := by
        cases hx : holed with
        | false => rfl
        | true => exact absurd hl.symm (hr hx)
      exact ⟨hc.stream, hc.inOrder hl.symm hholed hf⟩
    · obtain ⟨hst, hi⟩ := hc.stream.reset
      exact ⟨hst, fun hi' => by simp [hi] at hi'⟩
  obtain ⟨o', hcont, hst, hlast, h1, h2, h3, h4, h5⟩ := writeTemporal_spec hnum.1 hnum.2 hv
  have hstep : (h.step a).1 = (((h.selected a).followSSRC a.packet).writeTemporal a.packet).1 := by
    rw [QualityFilterHandler.step, hw]
  have hsent : (h.step a).2 = (written
      (((h.selected a).followSSRC a.packet).writeTemporal a.packet).2).filter (·.isVideo) := by
    simp [QualityFilterHandler.step, hw, written_append, hpli, h3, hfi, hsel.isScalable]
  have hhole : h.hole holed a = false := by
    simp only [hole, hh, hp]
    cases hx : holed with
    | false => rfl
    | true => simp [hr hx]
  rw [hhole, hstep, hsent]
  refine ⟨o', by rw [← hsel.videoSinkSSRC, ← hfs]; exact hcont, h4.trans (hfs.trans hsel.videoSinkSSRC),
    hst, h2.trans (hfe.trans (hsel.enabled.trans hc.enabled)), ?_, fun _ => ?_, fun hi _ => ?_, by simp⟩
  · simp [h3, hfi, hsel.isScalable]
  · rw [h1, hfl]
    exact hs
  · rw [h1, hfl, advance_self hv, hlast hi]

/-- An arrival keeps the stream continuous. -/
theorem Continuous.step (hsrc : (∀ s, source s → s ≠ 0) ∨ ∀ s s', source s → source s' → s = s')
    (hc : Continuous source h holed cur o) {a : Arrival}
    (hs : a.packet.isVideo = true → source a.packet.header.ssrc)
    (hf : a.packet.isVideo = true →
      Follows (cur a.packet.header.ssrc) a.packet.header.seqNumber)
    (hr : NoReturn (h, holed) a) :
    ∃ o', Continues h.videoSinkSSRC o (h.step a).2 o' ∧
      (h.step a).1.videoSinkSSRC = h.videoSinkSSRC ∧
      Continuous source (h.step a).1 (h.hole holed a) (advance cur a.packet) o' := by
  cases hh : h.handles a with
  | false =>
    obtain ⟨h1, h2, h3⟩ := hc.step_unhandled hh
    exact ⟨o, h1 ▸ Continues.nil _ _, h2, h3⟩
  | true =>
    have hv := (h.handles_spec hh).1
    cases hp : h.passes a with
    | false =>
      obtain ⟨h1, h2, h3⟩ := hc.step_dropped hsrc hh hp (hs hv) (hf hv)
      exact ⟨o, h1 ▸ Continues.nil _ _, h2, h3⟩
    | true => exact hc.step_passed hh hp (hs hv) (hf hv) (hr hp)

/-! ### Runs -/

/-- The video packets forwarded once the video is known as scalable. -/
def sent (h : QualityFilterHandler) (arrivals : List Arrival) : List DataPacket :=
  (Runs.trace step h arrivals).flatMap (·.2)

theorem Continues.append {sink : UInt32} {o o' o'' : Option UInt16} {l m : List DataPacket}
    (hl : Continues sink o l o') (hm : Continues sink o' m o'') : Continues sink o (l ++ m) o'' where
  cursor := by rw [List.map_append, cursor_append, hl.cursor, hm.cursor]
  chain := by
    rw [List.map_append, chainFrom_append, hl.cursor]
    exact ⟨hl.chain, hm.chain⟩
  sink q hq := (List.mem_append.mp hq).elim (hl.sink q) (hm.sink q)

theorem Continuous.run (hsrc : (∀ s, source s → s ≠ 0) ∨ ∀ s s', source s → source s' → s = s')
    {arrivals : List Arrival} (hc : Continuous source h holed cur o)
    (hs : ∀ a ∈ arrivals, a.packet.isVideo = true → source a.packet.header.ssrc)
    (hl : Lossless cur arrivals) (hr : Runs.Steps track NoReturn (h, holed) arrivals) :
    ∃ o', Continues h.videoSinkSSRC o (sent h arrivals) o' := by
  induction arrivals generalizing h holed cur o with
  | nil => exact ⟨o, Continues.nil _ _⟩
  | cons a arrivals ih =>
    obtain ⟨o', h1, hsink, hc'⟩ := hc.step hsrc (hs a (List.mem_cons_self ..)) hl.1 hr.1
    obtain ⟨o'', h2⟩ := ih hc' (fun b hb => hs b (List.mem_cons_of_mem _ hb)) hl.2 hr.2
    rw [hsink] at h2
    exact ⟨o'', h1.append h2⟩

/-- The forwarded packets form one stream, if no packet is let through while its SSRC has a hole
and the SSRC 0, which stands for none, is not one of several. -/
theorem sent_continuous (sink sourceSSRC : UInt32) (start : ℤ) (arrivals : List Arrival)
    (hsrc : (∀ a ∈ arrivals, a.packet.isVideo = true → a.packet.header.ssrc ≠ 0) ∨
      ∃ ssrc, ∀ a ∈ arrivals, a.packet.isVideo = true → a.packet.header.ssrc = ssrc)
    (hl : Lossless (fun _ => none) arrivals)
    (hr : Runs.Steps track NoReturn (fresh sink sourceSSRC start, false) arrivals) :
    (∀ q ∈ sent (fresh sink sourceSSRC start) arrivals, q.header.ssrc = sink) ∧
      Consecutive ((sent (fresh sink sourceSSRC start) arrivals).map (·.header.seqNumber)) := by
  have hsource : (∀ s, (∃ a ∈ arrivals, a.packet.isVideo = true ∧ a.packet.header.ssrc = s) → s ≠ 0) ∨
      ∀ s s', (∃ a ∈ arrivals, a.packet.isVideo = true ∧ a.packet.header.ssrc = s) →
        (∃ a ∈ arrivals, a.packet.isVideo = true ∧ a.packet.header.ssrc = s') → s = s' := by
    rcases hsrc with hsrc | ⟨ssrc, hsrc⟩
    · left
      rintro s ⟨a, ha, hv, rfl⟩
      exact hsrc a ha hv
    · right
      rintro s s' ⟨a, ha, hv, rfl⟩ ⟨b, hb, hv', rfl⟩
      rw [hsrc a ha hv, hsrc b hb hv']
  obtain ⟨o, hc⟩ := (Continuous.empty _ sink sourceSSRC start).run hsource
    (fun a ha hv => ⟨a, ha, hv, rfl⟩) hl hr
  exact ⟨hc.sink, chainFrom_none_iff.mp hc.chain⟩

/-- Two simulcast streams with a switch to the second one at its keyframe and back. -/
theorem sent_continuous_switch :
    let packet (ssrc : UInt32) (seq : UInt16) (layer : ℤ) (key : Bool) : DataPacket :=
      { header := { ssrc := ssrc, seqNumber := seq }, compatibleSpatialLayers := [layer],
        compatibleTemporalLayers := [0, 1], isKeyframe := key }
    let stream := sent (fresh 7 1 0) [⟨packet 1 10 0 true, {}⟩, ⟨packet 2 100 1 true, {}⟩,
      ⟨packet 1 11 0 false, { spatialLayer := 1 }⟩, ⟨packet 2 101 1 true, { spatialLayer := 1 }⟩,
      ⟨packet 1 12 0 false, { spatialLayer := 1 }⟩, ⟨packet 1 13 0 true, {}⟩]
    (∀ q ∈ stream, q.header.ssrc = 7) ∧ Consecutive (stream.map (·.header.seqNumber)) :=
  sent_continuous 7 1 0 _ (.inl (by decide)) (by
    simp [Lossless, advance, DataPacket.isVideo]) (by decide)

/-- A layer selected for a moment is switched to after the timeout. The packet dropped meanwhile
is missing when the first layer comes back. -/
theorem sent_not_continuous : ¬∀ (sink sourceSSRC : UInt32) (start : ℤ) (layerOf : UInt32 → ℤ)
    (arrivals : List Arrival),
    ((∃ ssrc, ∀ a ∈ arrivals, a.packet.isVideo = true → a.packet.header.ssrc = ssrc) ∨
      ∀ a ∈ arrivals, a.packet.isVideo = true →
        a.packet.compatibleSpatialLayers = [layerOf a.packet.header.ssrc]) →
    Lossless (fun _ => none) arrivals →
    (∀ q ∈ sent (fresh sink sourceSSRC start) arrivals, q.header.ssrc = sink) ∧
      Consecutive ((sent (fresh sink sourceSSRC start) arrivals).map (·.header.seqNumber)) := by
  intro h
  let packet (ssrc : UInt32) (seq : UInt16) (key : Bool) : DataPacket :=
    { header := { ssrc := ssrc, seqNumber := seq }, compatibleTemporalLayers := [0, 1]
      compatibleSpatialLayers := [if ssrc = 1 then 0 else 1], isKeyframe := key }
  let arrivals : List Arrival := [⟨packet 1 10 true, {}⟩, ⟨packet 2 100 true, {}⟩,
    ⟨packet 1 11 false, { spatialLayer := 1 }⟩, ⟨packet 1 12 false, { now := 4000000000 }⟩,
    ⟨packet 1 13 true, { changeTime := 5000000000, now := 5000000000 }⟩]
  have hc := h 7 1 0 (fun ssrc => if ssrc = 1 then 0 else 1) arrivals
    (.inr (by decide)) (by simp [arrivals, packet, Lossless, advance, DataPacket.isVideo])
  have hs : (sent (fresh 7 1 0) arrivals).map (·.header.seqNumber) = [10, 11, 13] := by
    decide
  rw [hs] at hc
  exact absurd hc.2 (by simp [Consecutive])

end KkLicode.Rtp.QualityFilterHandler
