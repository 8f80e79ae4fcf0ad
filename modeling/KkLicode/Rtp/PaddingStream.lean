import KkLicode.Rtp.RtpPaddingGeneratorHandler
import KkLicode.Rtp.TranslatorStream

/-! What leaves the padding generator. The packets it is given and the padding
packets in between carry consecutive numbers. -/

namespace KkLicode.Rtp

open Base.Streams SequenceNumberTranslator

/-- The packets that were written, with whose they were. -/
abbrev Written := List (Origin × DataPacket)

def Written.origins (out : Written) : List Origin := out.map (·.1)

/-- The numbers of the video packets that were written. -/
def Written.numbers (out : Written) : List UInt16 :=
  (out.filter (·.2.isVideo)).map (·.2.header.seqNumber)

/-- The end of the path: packets are recorded as they are at that moment. -/
def record : Context Written := fun out packets origin ref =>
  (out ++ [(origin, packets.packet ref)], packets)

theorem Written.origins_append (out : Written) (origin : Origin) (p : DataPacket) :
    origins (out ++ [(origin, p)]) = out.origins ++ [origin] := by
  simp [origins]

theorem Written.numbers_append {p : DataPacket} (hp : p.isVideo = true) (out : Written)
    (origin : Origin) : numbers (out ++ [(origin, p)]) = out.numbers ++ [p.header.seqNumber] := by
  simp [numbers, List.filter_append, hp]

theorem Written.numbers_append_other {p : DataPacket} (hp : p.isVideo = false) (out : Written)
    (origin : Origin) : numbers (out ++ [(origin, p)]) = out.numbers := by
  simp [numbers, List.filter_append, hp]

namespace RtpPaddingGeneratorHandler

/-- The numbers written so far are consecutive and the translator stands behind them; `c` is the
number given to the handler last. -/
structure Padding (h : RtpPaddingGeneratorHandler) (out : Written) (c : Option UInt16) : Prop where
  stream : h.translator.Streaming (cursor none out.numbers) (ownCount 0 out.origins)
  chain : ChainFrom none out.numbers
  next : h.translator.initialized = true → c = some h.translator.lastInputSequenceNumber

/-- As long as there are few own packets between two packets. -/
def PaddingOk (h : RtpPaddingGeneratorHandler) (out : Written) (c : Option UInt16) : Prop :=
  FewOwn 0 out.origins → Padding h out c

variable {c : Option UInt16}

theorem Padding.empty : Padding {} [] none where
  stream := Streaming.empty
  chain := trivial
  next := by simp

/-- Calls that write own packets at most. -/
structure Quiet (c : Option UInt16) (s s' : Stage RtpPaddingGeneratorHandler Written) : Prop where
  padding : PaddingOk s.handler s.next c → PaddingOk s'.handler s'.next c
  task : s'.handler.scheduledTask = s.handler.scheduledTask

variable {s s' s'' : Stage RtpPaddingGeneratorHandler Written}

theorem Quiet.refl (c : Option UInt16) (s : Stage RtpPaddingGeneratorHandler Written) : Quiet c s s :=
  ⟨id, rfl⟩

theorem Quiet.trans (h : Quiet c s s') (h' : Quiet c s' s'') : Quiet c s s'' :=
  ⟨h'.padding ∘ h.padding, h'.task.trans h.task⟩

@[simp] theorem makePaddingPacket_isVideo (p : DataPacket) (size : UInt8) :
    (makePaddingPacket p size).isVideo = p.isVideo := rfl

/-- The translator decides about the numbers; the other fields do not matter to them. -/
theorem PaddingOk.congr {h h' : RtpPaddingGeneratorHandler} {out : Written}
    (hp : PaddingOk h out c) (ht : h'.translator = h.translator) : PaddingOk h' out c := by
  intro hf
  obtain ⟨h1, h2, h3⟩ := hp hf
  exact ⟨ht ▸ h1, h2, ht ▸ h3⟩

/-- A padding packet is written with the number that is generated for it. -/
theorem Padding.generate {h : RtpPaddingGeneratorHandler} {out : Written} (hp : Padding h out c)
    {p : DataPacket} (hv : p.isVideo = true) {h' : RtpPaddingGeneratorHandler}
    (ht : h'.translator = h.translator.generate.1)
    (hn : p.header.seqNumber = h.translator.generate.2.output) :
    Padding h' (out ++ [(.own, p)]) c := by
  obtain ⟨hs, hr⟩ := hp.stream.generate
  rw [hr] at hn
  refine ⟨?_, ?_, ?_⟩
  · rw [ht, Written.numbers_append hv, Written.origins_append, cursor_append, ownCount_append, hn]
    exact hs
  · rw [Written.numbers_append hv, chainFrom_append, hn]
    exact ⟨hp.chain, hp.stream.follows, trivial⟩
  · rw [ht]
    exact hp.next

/-- A packet is written with the number the translator has for it. -/
theorem Padding.forward {h : RtpPaddingGeneratorHandler} {out : Written} (hp : Padding h out c)
    {x : UInt16} (hx : Follows c x) (hk : ownCount 0 out.origins < 4095) {p : DataPacket}
    (hv : p.isVideo = true) {h' : RtpPaddingGeneratorHandler}
    (ht : h'.translator = (h.translator.get x false).1)
    (hn : p.header.seqNumber = (h.translator.get x false).2.output) :
    Padding h' (out ++ [(.source, p)]) (some x) := by
  have hin : InOrder h.translator x := fun hi => hx _ (hp.next hi)
  obtain ⟨output, hr, hfo, hs, -, hl⟩ := hp.stream.forward hk hin
  rw [hr] at hn
  refine ⟨?_, ?_, fun _ => ?_⟩
  · rw [ht, Written.numbers_append hv, Written.origins_append, cursor_append, ownCount_append, hn]
    exact hs
  · rw [Written.numbers_append hv, chainFrom_append, hn]
    exact ⟨hp.chain, hfo, trivial⟩
  · rw [ht, hl]

/-! ### Padding packets -/

theorem sendPaddingPacket_extends (s : Stage RtpPaddingGeneratorHandler Written) (ref : ℕ)
    (size : UInt8) (now : UInt64) :
    Packets.Extends s.packets (sendPaddingPacket record s ref size now).packets := by
  unfold sendPaddingPacket
  dsimp only
  split_ifs
  · exact Packets.Extends.refl _
  · exact Packets.Extends.refl _
  · exact Packets.extends_alloc _ _

theorem sendPaddingPacket_quiet (s : Stage RtpPaddingGeneratorHandler Written) {ref : ℕ}
    (hv : s.packets.Video ref) (size : UInt8) (now : UInt64) :
    Quiet c s (sendPaddingPacket record s ref size now) := by
  unfold sendPaddingPacket
  dsimp only
  split_ifs
  · exact Quiet.refl c s
  · exact Quiet.refl c s
  · refine ⟨fun hp hf => ?_, rfl⟩
    simp only [Stage.fireWrite, record, Packets.alloc_packet] at hf ⊢
    rw [Written.origins_append, fewOwn_append] at hf
    exact (hp hf.1).generate (by exact hv.2) (by rfl) (by rfl)

/-- Full padding packets, one after the other. -/
def sendFullPackets (s : Stage RtpPaddingGeneratorHandler Written) (r : PaddingReading) (ref : ℕ)
    (l : List ℕ) : Stage RtpPaddingGeneratorHandler Written :=
  l.foldl (fun s i => sendPaddingPacket record s ref kMaxPaddingSize (r.bucketTime i)) s

theorem sendFullPackets_extends (s : Stage RtpPaddingGeneratorHandler Written) (r : PaddingReading)
    (ref : ℕ) (l : List ℕ) : Packets.Extends s.packets (sendFullPackets s r ref l).packets := by
  induction l generalizing s with
  | nil => exact Packets.Extends.refl _
  | cons i l ih => exact (sendPaddingPacket_extends s ref _ _).trans (ih _)

theorem sendFullPackets_quiet (s : Stage RtpPaddingGeneratorHandler Written) (r : PaddingReading)
    {ref : ℕ} (hv : s.packets.Video ref) (l : List ℕ) : Quiet c s (sendFullPackets s r ref l) := by
  induction l generalizing s with
  | nil => exact Quiet.refl c s
  | cons i l ih =>
    exact (sendPaddingPacket_quiet s hv _ _).trans (ih _ (hv.mono (sendPaddingPacket_extends ..)))

theorem onPacketWithMarkerSet_extends (s : Stage RtpPaddingGeneratorHandler Written)
    (r : PaddingReading) (ref : ℕ) :
    Packets.Extends s.packets (onPacketWithMarkerSet record s r ref).packets :=
  (sendFullPackets_extends s r ref _).trans (sendPaddingPacket_extends ..)

theorem onPacketWithMarkerSet_ok {s : Stage RtpPaddingGeneratorHandler Written} (r : PaddingReading)
    {ref : ℕ} (hv : s.packets.Video ref) (hp : PaddingOk s.handler s.next c) :
    PaddingOk (onPacketWithMarkerSet record s r ref).handler
      (onPacketWithMarkerSet record s r ref).next c := by
  have h1 := sendFullPackets_quiet (c := c) s r hv (List.range s.handler.numberOfFullPaddingPackets)
  have h2 := h1.trans (sendPaddingPacket_quiet _ (hv.mono (sendFullPackets_extends ..))
    (sendFullPackets s r ref
      (List.range s.handler.numberOfFullPaddingPackets)).handler.lastPaddingPacketSize
    (r.bucketTime s.handler.numberOfFullPaddingPackets))
  exact (h2.padding hp).congr rfl

/-! ### The handler as a context -/

/-- The state of the handler between two calls. -/
structure Between (h : RtpPaddingGeneratorHandler) (out : Written) (ps : Packets)
    (c : Option UInt16) : Prop where
  padding : PaddingOk h out c
  task : ∀ ref ∈ h.scheduledTask, ps.Video ref

theorem Between.empty : Between {} [] {} none where
  padding _ := Padding.empty
  task := by simp

theorem onPacketWithMarkerSet_between {s : Stage RtpPaddingGeneratorHandler Written}
    (r : PaddingReading) {ref : ℕ} (hv : s.packets.Video ref) (hp : PaddingOk s.handler s.next c) :
    Between (onPacketWithMarkerSet record s r ref).handler
      (onPacketWithMarkerSet record s r ref).next (onPacketWithMarkerSet record s r ref).packets c where
  padding := onPacketWithMarkerSet_ok r hv hp
  task ref' hr := by
    rw [← Option.some.inj hr]
    exact hv.mono (onPacketWithMarkerSet_extends s r ref)

theorem recalculatePaddingRate_fields (h : RtpPaddingGeneratorHandler) (r : PaddingReading) :
    (h.recalculatePaddingRate r).translator = h.translator ∧
      (h.recalculatePaddingRate r).scheduledTask = h.scheduledTask := by
  unfold recalculatePaddingRate
  dsimp only
  split_ifs <;> exact ⟨rfl, rfl⟩

theorem onVideoPacket_extends (s : Stage RtpPaddingGeneratorHandler Written) (r : PaddingReading)
    (ref : ℕ) : Packets.Extends s.packets (onVideoPacket record s r ref).packets := by
  unfold onVideoPacket
  dsimp only
  split_ifs
  · exact Packets.Extends.refl _
  · exact onPacketWithMarkerSet_extends (s.setHandler (s.handler.recalculatePaddingRate r)) r ref
  · exact Packets.Extends.refl _

theorem onVideoPacket_between {s : Stage RtpPaddingGeneratorHandler Written} (r : PaddingReading)
    {ref : ℕ} (hv : s.packets.Video ref) (h : Between s.handler s.next s.packets c) :
    Between (onVideoPacket record s r ref).handler (onVideoPacket record s r ref).next
      (onVideoPacket record s r ref).packets c := by
  obtain ⟨ht, hs⟩ := recalculatePaddingRate_fields s.handler r
  unfold onVideoPacket
  dsimp only
  split_ifs
  · exact h
  · exact onPacketWithMarkerSet_between (s := s.setHandler (s.handler.recalculatePaddingRate r)) r hv
      (h.padding.congr ht)
  · exact ⟨h.padding.congr ht, fun ref' hr => h.task ref' (hs ▸ hr)⟩

/-- The number of the packet is replaced by the one the translator has for it. -/
theorem isHigherSequenceNumber_spec (s : Stage RtpPaddingGeneratorHandler Written) (ref : ℕ) :
    (isHigherSequenceNumber s ref).1.next = s.next ∧
    (isHigherSequenceNumber s ref).1.packets = s.packets.modify ref (·.setSeqNumber
      (s.handler.translator.get (s.packets.packet ref).header.seqNumber false).2.output) ∧
    (isHigherSequenceNumber s ref).1.handler.translator =
      (s.handler.translator.get (s.packets.packet ref).header.seqNumber false).1 ∧
    (isHigherSequenceNumber s ref).1.handler.scheduledTask = s.handler.scheduledTask := by
  unfold isHigherSequenceNumber
  dsimp only
  split_ifs <;> exact ⟨rfl, rfl, rfl, rfl⟩

theorem write_extends (s : Stage RtpPaddingGeneratorHandler Written) (r : PaddingReading) (ref : ℕ) :
    Packets.Extends s.packets (write record s r ref).packets := by
  obtain ⟨-, hp, -, -⟩ :=
    isHigherSequenceNumber_spec (s.setHandler { s.handler with scheduledTask := none }) ref
  have he : Packets.Extends s.packets (isHigherSequenceNumber
      (s.setHandler { s.handler with scheduledTask := none }) ref).1.packets :=
    hp ▸ Packets.extends_setSeqNumber ..
  unfold write
  dsimp only
  split_ifs
  · exact Packets.Extends.refl _
  · refine Packets.Extends.trans ?_ (onVideoPacket_extends _ r ref)
    exact he
  · exact he

/-- A video packet is renumbered and written, with padding behind it. -/
theorem write_video {s : Stage RtpPaddingGeneratorHandler Written} (r : PaddingReading) {ref : ℕ}
    (hv : s.packets.Video ref) (h : Between s.handler s.next s.packets c)
    (hx : Follows c (s.packets.packet ref).header.seqNumber) :
    Between (write record s r ref).handler (write record s r ref).next (write record s r ref).packets
      (some (s.packets.packet ref).header.seqNumber) := by
  obtain ⟨hn, hp, ht, hs⟩ :=
    isHigherSequenceNumber_spec (s.setHandler { s.handler with scheduledTask := none }) ref
  generalize hgen : isHigherSequenceNumber
    (s.setHandler { s.handler with scheduledTask := none }) ref = q at hn hp ht hs
  -- the state in which the packet has been written
  set s' := (q.1.setHandler { q.1.handler with firstPacketReceived := true }).fireWrite record
    .source ref with hs'
  have hw : write record s r ref = if q.2 then onVideoPacket record s' r ref else s' := by
    have : (s.packets.packet ref).isVideo = true := hv.2
    simp [write, this, hgen, hs']
  have hext : Packets.Extends s.packets s'.packets := by
    show Packets.Extends s.packets q.1.packets
    rw [hp]
    exact Packets.extends_setSeqNumber ..
  have hbetween : Between s'.handler s'.next s'.packets
      (some (s.packets.packet ref).header.seqNumber) := by
    refine ⟨fun hf => ?_, fun ref' hr => ?_⟩
    · have hnext : s'.next = s.next ++ [(.source, q.1.packets.packet ref)] := by
        show q.1.next ++ _ = _
        rw [hn]
        rfl
      rw [hnext, Written.origins_append, fewOwn_append] at hf
      rw [hnext]
      have hpacket : q.1.packets.packet ref = (s.packets.packet ref).setSeqNumber
          (s.handler.translator.get (s.packets.packet ref).header.seqNumber false).2.output := by
        rw [hp]
        exact Packets.modify_packet _ _ _
      rw [hpacket]
      exact (h.padding hf.1).forward hx hf.2.1 (by exact hv.2) (by exact ht) (by rfl)
    · have : s'.handler.scheduledTask = none := hs
      rw [this] at hr
      simp at hr
  rw [hw]
  split_ifs with hq
  · exact onVideoPacket_between r (hv.mono hext) hbetween
  · exact hbetween

/-- Another packet passes by. -/
theorem write_other {s : Stage RtpPaddingGeneratorHandler Written} (r : PaddingReading) {ref : ℕ}
    (hv : (s.packets.packet ref).isVideo = false) (h : Between s.handler s.next s.packets c) :
    Between (write record s r ref).handler (write record s r ref).next
      (write record s r ref).packets c := by
  have hw : write record s r ref = s.fireWrite record .other ref := by simp [write, hv]
  rw [hw]
  refine ⟨fun hf => ?_, h.task⟩
  simp only [Stage.fireWrite, record] at hf ⊢
  rw [Written.origins_append, fewOwn_append] at hf
  obtain ⟨h1, h2, h3⟩ := h.padding hf.1
  refine ⟨?_, ?_, h3⟩
  · rw [Written.numbers_append_other hv, Written.origins_append, ownCount_append]
    exact h1
  · rw [Written.numbers_append_other hv]
    exact h2

theorem onTimer_extends (s : Stage RtpPaddingGeneratorHandler Written) (r : PaddingReading) :
    Packets.Extends s.packets (onTimer record s r).packets := by
  unfold onTimer
  split
  · exact Packets.Extends.refl _
  · exact onPacketWithMarkerSet_extends _ r _

/-- The timer writes padding packets only. -/
theorem onTimer_between {s : Stage RtpPaddingGeneratorHandler Written} (r : PaddingReading)
    (h : Between s.handler s.next s.packets c) :
    Between (onTimer record s r).handler (onTimer record s r).next (onTimer record s r).packets c := by
  unfold onTimer
  split
  · exact h
  · rename_i ref ht
    exact onPacketWithMarkerSet_between r (h.task ref ht) h.padding

/-- The settings do not touch the numbers. -/
theorem notifyUpdate_between {h : RtpPaddingGeneratorHandler} {out : Written} {ps : Packets}
    (hb : Between h out ps c) (paddingEnabled : Bool) (maxVideoBw : ℕ) (now : ℤ) :
    Between (h.notifyUpdate paddingEnabled maxVideoBw now) out ps c := by
  have he : (h.notifyUpdate paddingEnabled maxVideoBw now).translator = h.translator ∧
      (h.notifyUpdate paddingEnabled maxVideoBw now).scheduledTask = h.scheduledTask := by
    unfold notifyUpdate
    dsimp only
    split_ifs <;> exact ⟨rfl, rfl⟩
  exact ⟨hb.padding.congr he.1, fun ref hr => hb.task ref (he.2 ▸ hr)⟩

end RtpPaddingGeneratorHandler

end KkLicode.Rtp
