import KkLicode.Rtp.PaddingStream
import KkLicode.Rtp.SlideShowStream

/-! The numbers that leave `RtpSlideShowHandler` during a long still picture. Packets
of the stored keyframe are numbered by an offset to the last output, and the next
packet forwarded moves the last output on only when the offset is small, but it
always clears the offset. -/

namespace KkLicode.Rtp.RtpSlideShowHandler

open Base Base.Serial Base.Streams SequenceNumberTranslator

/-- What happens to the handler. -/
inductive Event where
  | packet (packet : DataPacket) (reading : SlideShowReading)
  | setSlideShowMode (active : Bool) (now : ℤ)

/-- The handler with the packets it wrote. -/
abbrev Show := Stage RtpSlideShowHandler Written

def step (s : Show) : Event → Show × Unit
  | .packet p r =>
    let (packets, ref) := s.packets.alloc p
    (write record { s with packets := packets } r ref, ())
  | .setSlideShowMode active now => (s.setHandler (s.handler.setSlideShowMode active now), ())

/-- The handler when it was made at the time `now`. -/
def start (now : ℤ) : Show := ⟨{ lastKeyframeSentTime := now }, [], {}⟩

/-- The video packets come in order and without loss; `c` is the number before. -/
def Lossless : Option UInt16 → List Event → Prop
  | _, [] => True
  | c, .packet p _ :: events =>
    if p.isVideo then Follows c p.header.seqNumber ∧ Lossless (some p.header.seqNumber) events
    else Lossless c events
  | c, .setSlideShowMode _ _ :: events => Lossless c events

instance Lossless.decidable : ∀ c events, Decidable (Lossless c events)
  | _, [] => isTrue trivial
  | c, .packet p _ :: events =>
    haveI := Lossless.decidable (some p.header.seqNumber) events
    haveI := Lossless.decidable c events
    inferInstanceAs (Decidable (if p.isVideo then
      Follows c p.header.seqNumber ∧ Lossless (some p.header.seqNumber) events
      else Lossless c events))
  | c, .setSlideShowMode _ _ :: events => Lossless.decidable c events

/-- Whether a packet belongs to a keyframe, and the handler when that is known. -/
def checked (h : RtpSlideShowHandler) (packets : Packets) (r : SlideShowReading) (ref : ℕ) :
    RtpSlideShowHandler × Bool :=
  ({ h with lastTimestampReceived := (packets.packet ref).header.timestamp } :
    RtpSlideShowHandler).checkKeyframe r.codec (packets.packet ref)

/-- A packet of a keyframe is stored, and the keyframe is looked for. -/
def stored (h : RtpSlideShowHandler) (packets : Packets) (ref : ℕ) (isKeyframe : Bool) :
    RtpSlideShowHandler :=
  let h := if isKeyframe then
      h.storeKeyframePacket (packets.packet ref).header.seqNumber ref else h
  if h.isBuildingKeyframe then h.consolidateKeyframe packets else h

/-- The handler when the stored keyframe may go out. -/
def prepared (h : RtpSlideShowHandler) (packets : Packets) (r : SlideShowReading) (ref : ℕ) :
    RtpSlideShowHandler :=
  let (h, isKeyframe) := h.checked packets r ref
  if h.slideshowIsActive then h.stored packets ref isKeyframe else h

/-- Whether nothing was sent for too long. -/
def due (h : RtpSlideShowHandler) (packets : Packets) (r : SlideShowReading) (ref : ℕ) : Bool :=
  let h := h.prepared packets r ref
  h.slideshowIsActive && r.resendTime - h.lastKeyframeSentTime > kFallbackKeyframeTimeout

/-- The packets that go out again at a packet. -/
def resent (h : RtpSlideShowHandler) (packets : Packets) (r : SlideShowReading) (ref : ℕ) : List ℕ :=
  if h.due packets r ref then (h.prepared packets r ref).storedKeyframe else []

/-- The packet is skipped in slideshow mode. -/
def skips (h : RtpSlideShowHandler) (packets : Packets) (r : SlideShowReading) (ref : ℕ) : Bool :=
  let (h, isKeyframe) := h.checked packets r ref
  h.slideshowIsActive && !isKeyframe

/-- When a packet is forwarded, the packets sent again since the last one that was, those at this
packet included, are fewer than 4095, up to multiples of 65536. -/
def Catches (s : Show) : Event → Prop
  | .packet p r =>
    let (packets, ref) := s.packets.alloc p
    p.isVideo = true → s.handler.skips packets r ref = false →
      (s.handler.translator.offset + .ofNat (s.handler.resent packets r ref).length + 1).toNat ≤ 4095
  | .setSlideShowMode _ _ => True

instance (s : Show) : ∀ e, Decidable (Catches s e)
  | .packet _ _ => inferInstanceAs (Decidable (_ → _ → _))
  | .setSlideShowMode _ _ => isTrue trivial

/-! ### What the parts of `write` leave alone -/

variable {h : RtpSlideShowHandler} {packets : Packets} {r : SlideShowReading} {ref : ℕ}

/-- Nothing is kept of a keyframe. -/
structure Empty (h : RtpSlideShowHandler) : Prop where
  stored : h.storedKeyframe = []
  buffer : ∀ slot ∈ h.keyframeBuffer, slot = none

theorem Empty.resetKeyframeBuilding (he : h.Empty) : h.resetKeyframeBuilding.Empty where
  stored := he.stored
  buffer _ hs := List.eq_of_mem_replicate hs

theorem Empty.checkKeyframe (he : h.Empty) (codec : Option String) (packet : DataPacket) :
    (h.checkKeyframe codec packet).1.Empty := by
  unfold RtpSlideShowHandler.checkKeyframe isVP8Keyframe isVP9Keyframe
  dsimp only
  split_ifs
  all_goals first
    | exact ⟨he.stored, he.buffer⟩
    | exact ⟨he.stored, he.resetKeyframeBuilding.buffer⟩

/-- An empty buffer has no keyframe. -/
theorem Empty.consolidateKeyframe (he : h.Empty) (packets : Packets) :
    (h.consolidateKeyframe packets).Empty := by
  have hnone : (collectKeyframe packets h.currentKeyframeTimestamp
      (h.keyframeBuffer.take kMaxKeyframeSize)).2 = false := by
    cases hb : h.keyframeBuffer.take kMaxKeyframeSize with
    | nil => rfl
    | cons slot buffer =>
      have hm : slot ∈ h.keyframeBuffer := List.mem_of_mem_take (hb ▸ List.mem_cons_self)
      rw [he.buffer slot hm]
      rfl
  unfold RtpSlideShowHandler.consolidateKeyframe
  dsimp only
  split_ifs with h1 h2
  · exact ⟨he.stored, he.resetKeyframeBuilding.buffer⟩
  · exact absurd h2 (by simp [hnone])
  · exact ⟨he.stored, he.buffer⟩

theorem length_collectKeyframe (packets : Packets) (timestamp : UInt32) (buffer : List (Option ℕ)) :
    (collectKeyframe packets timestamp buffer).1.length ≤ buffer.length := by
  induction buffer with
  | nil => simp [collectKeyframe]
  | cons slot buffer ih =>
    cases slot with
    | none => simp [collectKeyframe]
    | some ref =>
      rw [collectKeyframe]
      split_ifs
      · simp
      · simp
      · simpa using ih

/-- A keyframe is stored only in place of the last one. -/
theorem length_storedKeyframe_consolidate (h : RtpSlideShowHandler) (packets : Packets) :
    (h.consolidateKeyframe packets).storedKeyframe.length ≤ max h.storedKeyframe.length 20 := by
  have hlen := length_collectKeyframe packets h.currentKeyframeTimestamp
    (h.keyframeBuffer.take kMaxKeyframeSize)
  have htake : (h.keyframeBuffer.take kMaxKeyframeSize).length ≤ 20 := List.length_take_le ..
  unfold RtpSlideShowHandler.consolidateKeyframe
  dsimp only
  split_ifs
  · exact le_max_left ..
  · exact le_max_of_le_right (hlen.trans htake)
  · exact le_max_left ..

@[simp] theorem slideshowIsActive_checkKeyframe (h : RtpSlideShowHandler) (codec : Option String)
    (packet : DataPacket) : (h.checkKeyframe codec packet).1.slideshowIsActive = h.slideshowIsActive := by
  unfold RtpSlideShowHandler.checkKeyframe isVP8Keyframe isVP9Keyframe
  dsimp only
  split_ifs <;> rfl

@[simp] theorem slideshowIsActive_consolidateKeyframe (h : RtpSlideShowHandler) (packets : Packets) :
    (h.consolidateKeyframe packets).slideshowIsActive = h.slideshowIsActive := by
  unfold RtpSlideShowHandler.consolidateKeyframe
  dsimp only
  split_ifs <;> rfl

/-! ### What `write` prepares -/

theorem checked_translator (h : RtpSlideShowHandler) (packets : Packets) (r : SlideShowReading)
    (ref : ℕ) : (h.checked packets r ref).1.translator = h.translator :=
  checkKeyframe_translator ..

theorem checked_storedKeyframe (h : RtpSlideShowHandler) (packets : Packets) (r : SlideShowReading)
    (ref : ℕ) : (h.checked packets r ref).1.storedKeyframe = h.storedKeyframe := by
  unfold checked RtpSlideShowHandler.checkKeyframe isVP8Keyframe isVP9Keyframe
  dsimp only
  split_ifs <;> rfl

theorem Keeps.checked {P : ℕ → Prop} (hk : h.Keeps P) (packets : Packets) (r : SlideShowReading)
    (ref : ℕ) : (h.checked packets r ref).1.Keeps P :=
  Keeps.checkKeyframe (h := { h with lastTimestampReceived := (packets.packet ref).header.timestamp })
    ⟨hk.stored, hk.buffer⟩ _ _

theorem Empty.checked (he : h.Empty) (packets : Packets) (r : SlideShowReading) (ref : ℕ) :
    (h.checked packets r ref).1.Empty :=
  Empty.checkKeyframe (h := { h with lastTimestampReceived := (packets.packet ref).header.timestamp })
    ⟨he.stored, he.buffer⟩ _ _

theorem stored_translator (h : RtpSlideShowHandler) (packets : Packets) (ref : ℕ)
    (isKeyframe : Bool) : (h.stored packets ref isKeyframe).translator = h.translator := by
  unfold stored
  dsimp only
  split_ifs <;> simp [storeKeyframePacket]

theorem stored_slideshowIsActive (h : RtpSlideShowHandler) (packets : Packets) (ref : ℕ)
    (isKeyframe : Bool) :
    (h.stored packets ref isKeyframe).slideshowIsActive = h.slideshowIsActive := by
  unfold stored
  dsimp only
  split_ifs <;> simp [storeKeyframePacket]

theorem Keeps.store {P : ℕ → Prop} (hk : h.Keeps P) (hr : P ref) (packets : Packets)
    (isKeyframe : Bool) : (h.stored packets ref isKeyframe).Keeps P := by
  have hstore := hk.storeKeyframePacket hr (packets.packet ref).header.seqNumber
  unfold RtpSlideShowHandler.stored
  dsimp only
  split_ifs
  · exact hstore.consolidateKeyframe _
  · exact hstore
  · exact hk.consolidateKeyframe _
  · exact hk

theorem Empty.store (he : h.Empty) (packets : Packets) (ref : ℕ) :
    (h.stored packets ref false).Empty := by
  unfold RtpSlideShowHandler.stored
  dsimp only
  rw [if_neg Bool.false_ne_true]
  split_ifs
  · exact he.consolidateKeyframe _
  · exact he

theorem length_storedKeyframe_stored (h : RtpSlideShowHandler) (packets : Packets) (ref : ℕ)
    (isKeyframe : Bool) :
    (h.stored packets ref isKeyframe).storedKeyframe.length ≤ max h.storedKeyframe.length 20 := by
  unfold stored
  dsimp only
  split_ifs
  · exact length_storedKeyframe_consolidate (h.storeKeyframePacket _ ref) packets
  · exact le_max_left ..
  · exact length_storedKeyframe_consolidate h packets
  · exact le_max_left ..

theorem prepared_translator (h : RtpSlideShowHandler) (packets : Packets) (r : SlideShowReading)
    (ref : ℕ) : (h.prepared packets r ref).translator = h.translator := by
  unfold prepared
  dsimp only
  split_ifs
  · rw [stored_translator, checked_translator]
  · exact checked_translator ..

theorem Keeps.prepared {P : ℕ → Prop} (hk : h.Keeps P) (hr : P ref) (packets : Packets)
    (r : SlideShowReading) : (h.prepared packets r ref).Keeps P := by
  unfold RtpSlideShowHandler.prepared
  dsimp only
  split_ifs
  · exact (hk.checked packets r ref).store hr packets _
  · exact hk.checked packets r ref

/-- A packet that is skipped leaves nothing behind. -/
theorem Empty.prepared (he : h.Empty) (hs : h.skips packets r ref = true) :
    (h.prepared packets r ref).Empty := by
  simp only [skips, Bool.and_eq_true, Bool.not_eq_true'] at hs
  unfold RtpSlideShowHandler.prepared
  dsimp only
  rw [if_pos hs.1, hs.2]
  exact (he.checked packets r ref).store packets ref

theorem length_resent (h : RtpSlideShowHandler) (packets : Packets) (r : SlideShowReading) (ref : ℕ) :
    (h.resent packets r ref).length ≤ max h.storedKeyframe.length 20 := by
  have hprep : (h.prepared packets r ref).storedKeyframe.length ≤ max h.storedKeyframe.length 20 := by
    unfold prepared
    dsimp only
    split_ifs
    · rw [← checked_storedKeyframe h packets r ref]
      exact length_storedKeyframe_stored ..
    · rw [checked_storedKeyframe]
      exact le_max_left ..
  unfold resent
  split_ifs
  · exact hprep
  · simp

theorem Empty.resent (he : (h.prepared packets r ref).Empty) : h.resent packets r ref = [] := by
  unfold RtpSlideShowHandler.resent
  split_ifs
  · exact he.stored
  · rfl

/-- The stage when the packet is about to be numbered. -/
def ready (s : Show) (r : SlideShowReading) (ref : ℕ) (highest : UInt16) (initialized : Bool) : Show :=
  let s' := (s.handler.resent s.packets r ref).foldl (resend record)
    (s.setHandler (s.handler.prepared s.packets r ref))
  s'.setHandler { s'.handler with
    lastKeyframeSentTime := if s.handler.due s.packets r ref then r.resendTime else
      (s.handler.prepared s.packets r ref).lastKeyframeSentTime
    highestSeqNum := highest
    highestSeqNumInitialized := initialized }

theorem resend_all_handler (s : Show) (refs : List ℕ) : (refs.foldl (resend record) s).handler =
    { s.handler with translator := (refs.foldl (resend record) s).handler.translator } := by
  induction refs generalizing s with
  | nil => rfl
  | cons ref refs ih => exact ih (resend record s ref)

/-- The stored keyframe going out changes no more than the numbers and the time. -/
theorem ready_handler (s : Show) (r : SlideShowReading) (ref : ℕ) (highest : UInt16)
    (initialized : Bool) : (ready s r ref highest initialized).handler =
      { s.handler.prepared s.packets r ref with
        translator := (ready s r ref highest initialized).handler.translator
        lastKeyframeSentTime := if s.handler.due s.packets r ref then r.resendTime else
          (s.handler.prepared s.packets r ref).lastKeyframeSentTime
        highestSeqNum := highest
        highestSeqNumInitialized := initialized } :=
  congrArg (fun h : RtpSlideShowHandler => { h with
    lastKeyframeSentTime := if s.handler.due s.packets r ref then r.resendTime else
      (s.handler.prepared s.packets r ref).lastKeyframeSentTime
    highestSeqNum := highest
    highestSeqNumInitialized := initialized }) (resend_all_handler ..)

theorem maybeSendStoredKeyframe_eq (s : Show) (now : ℤ) :
    maybeSendStoredKeyframe record s now =
      let due := now - s.handler.lastKeyframeSentTime > kFallbackKeyframeTimeout
      let s' := (if due then s.handler.storedKeyframe else []).foldl (resend record) s
      s'.setHandler { s'.handler with
        lastKeyframeSentTime := if due then now else s.handler.lastKeyframeSentTime } := by
  unfold maybeSendStoredKeyframe
  dsimp only
  split_ifs <;> rfl

/-- The stored keyframe is sent again, then the packet is numbered. -/
theorem write_eq (s : Show) (r : SlideShowReading) {ref : ℕ}
    (hv : (s.packets.packet ref).isVideo = true) : ∃ highest initialized,
      write record s r ref = number record (ready s r ref highest initialized) r ref
        (s.packets.packet ref).header.seqNumber (s.handler.skips s.packets r ref) := by
  have hhighest (h : RtpSlideShowHandler) (x : UInt16) : ∃ highest initialized,
      h.maybeUpdateHighestSeqNum x =
        { h with highestSeqNum := highest, highestSeqNumInitialized := initialized } := by
    unfold maybeUpdateHighestSeqNum
    split_ifs
    · exact ⟨_, _, rfl⟩
    · exact ⟨_, _, rfl⟩
  have hwrite : write record s r ref = number record
      (let s' := if (s.handler.checked s.packets r ref).1.slideshowIsActive = true then
          maybeSendStoredKeyframe record (s.setHandler ((s.handler.checked s.packets r ref).1.stored
            s.packets ref (s.handler.checked s.packets r ref).2)) r.resendTime
        else s.setHandler (s.handler.checked s.packets r ref).1
      s'.setHandler (s'.handler.maybeUpdateHighestSeqNum (s'.packets.packet ref).header.seqNumber))
      r ref (s.packets.packet ref).header.seqNumber (s.handler.skips s.packets r ref) := by
    unfold write
    dsimp only
    rw [if_neg (by simp [hv])]
    rfl
  -- the stage before the highest number is updated
  obtain ⟨s', hs', hw⟩ : ∃ s' : Show, (∀ highest initialized, ready s r ref highest initialized =
      s'.setHandler { s'.handler with
        highestSeqNum := highest, highestSeqNumInitialized := initialized }) ∧
      write record s r ref = number record (s'.setHandler
        (s'.handler.maybeUpdateHighestSeqNum (s'.packets.packet ref).header.seqNumber))
        r ref (s.packets.packet ref).header.seqNumber (s.handler.skips s.packets r ref) := by
    refine ⟨_, fun highest initialized => ?_, hwrite⟩
    by_cases ha : (s.handler.checked s.packets r ref).1.slideshowIsActive = true
    · have hprep : (s.handler.checked s.packets r ref).1.stored s.packets ref
          (s.handler.checked s.packets r ref).2 = s.handler.prepared s.packets r ref :=
        (if_pos ha).symm
      have hactive : (s.handler.prepared s.packets r ref).slideshowIsActive = true := by
        rw [← hprep, stored_slideshowIsActive, ha]
      rw [if_pos ha, hprep, maybeSendStoredKeyframe_eq]
      simp only [ready, resent, due, hactive, Bool.true_and, decide_eq_true_eq, Stage.setHandler]
      rfl
    · have hprep : (s.handler.checked s.packets r ref).1 = s.handler.prepared s.packets r ref :=
        (if_neg ha).symm
      have hactive : (s.handler.prepared s.packets r ref).slideshowIsActive = false := by
        rw [← hprep, Bool.not_eq_true _ |>.mp ha]
      rw [if_neg ha, hprep]
      simp [ready, resent, due, hactive, Stage.setHandler]
  obtain ⟨highest, initialized, hh⟩ := hhighest s'.handler (s'.packets.packet ref).header.seqNumber
  exact ⟨highest, initialized, by rw [hw, hs', hh]⟩

/-! ### The numbers -/

variable {s : Show} {c : Option UInt16} {k : ℕ}

/-- The numbers written so far are consecutive and the translator stands behind them; `c` is the
number given to the handler last, and `k` packets were sent again since one was forwarded. -/
structure Numbering (s : Show) (c : Option UInt16) (k : ℕ) : Prop where
  stream : s.handler.translator.Streaming (cursor none s.next.numbers) k
  chain : ChainFrom none s.next.numbers
  next : s.handler.translator.initialized = true →
    c = some s.handler.translator.lastInputSequenceNumber
  keeps : s.handler.Keeps s.packets.Video

theorem Numbering.setHandler (hn : Numbering s c k) {h : RtpSlideShowHandler}
    (ht : h.translator = s.handler.translator) (hk : h.Keeps s.packets.Video) :
    Numbering (s.setHandler h) c k where
  stream := by
    show h.translator.Streaming _ k
    rw [ht]
    exact hn.stream
  chain := hn.chain
  next := by
    show h.translator.initialized = true → c = some h.translator.lastInputSequenceNumber
    rw [ht]
    exact hn.next
  keeps := hk

theorem Numbering.alloc (hn : Numbering s c k) (p : DataPacket) :
    Numbering { s with packets := (s.packets.alloc p).1 } c k where
  stream := hn.stream
  chain := hn.chain
  next := hn.next
  keeps := hn.keeps.imp fun _ hv => hv.mono (Packets.extends_alloc ..)

/-- A packet of the stored keyframe goes out with a generated number. -/
theorem Numbering.resend (hn : Numbering s c k) (hv : s.packets.Video ref) :
    Numbering (resend record s ref) c (k + 1) ∧
      Packets.Extends s.packets (RtpSlideShowHandler.resend record s ref).packets := by
  obtain ⟨hg, hr⟩ := hn.stream.generate
  have he : Packets.Extends s.packets (RtpSlideShowHandler.resend record s ref).packets :=
    (Packets.extends_setTimestamp s.packets ref _).trans (Packets.extends_setSeqNumber ..)
  have hnumbers : (RtpSlideShowHandler.resend record s ref).next.numbers =
      s.next.numbers ++ [s.handler.translator.frontier + 1] := by
    have hoffset : s.handler.translator.offset + 1 + s.handler.translator.lastOutputSequenceNumber =
        s.handler.translator.frontier + 1 := congrArg SequenceNumber.output hr
    refine (Written.numbers_append ?_ s.next .own).trans ?_
    · simpa [Stage.modify, Stage.setHandler] using hv.2
    · simp [Stage.modify, Stage.setHandler, hoffset]
  refine ⟨⟨?_, ?_, hn.next, ?_⟩, he⟩
  · rw [hnumbers, cursor_append]
    exact hg
  · rw [hnumbers, chainFrom_append]
    exact ⟨hn.chain, hn.stream.follows, trivial⟩
  · exact Keeps.imp (h := (RtpSlideShowHandler.resend record s ref).handler)
      ⟨hn.keeps.stored, hn.keeps.buffer⟩ fun _ hv => hv.mono he

theorem Numbering.resend_all (hn : Numbering s c k) {refs : List ℕ}
    (hv : ∀ ref ∈ refs, s.packets.Video ref) :
    Numbering (refs.foldl (RtpSlideShowHandler.resend record) s) c (k + refs.length) ∧
      Packets.Extends s.packets (refs.foldl (RtpSlideShowHandler.resend record) s).packets ∧
      (refs.foldl (RtpSlideShowHandler.resend record) s).handler.translator.initialized =
        s.handler.translator.initialized := by
  induction refs generalizing s k with
  | nil => exact ⟨hn, Packets.Extends.refl _, rfl⟩
  | cons ref refs ih =>
    obtain ⟨h1, h2⟩ := hn.resend (hv ref List.mem_cons_self)
    obtain ⟨h3, h4, h5⟩ := ih h1 fun ref' hr => (hv ref' (List.mem_cons_of_mem _ hr)).mono h2
    refine ⟨?_, h2.trans h4, h5⟩
    rw [List.length_cons, Nat.add_comm refs.length, ← Nat.add_assoc]
    exact h3

theorem Numbering.ready (hn : Numbering s c k) (r : SlideShowReading) (hv : s.packets.Video ref)
    (highest : UInt16) (initialized : Bool) :
    Numbering (ready s r ref highest initialized) c
        (k + (s.handler.resent s.packets r ref).length) ∧
      Packets.Extends s.packets (RtpSlideShowHandler.ready s r ref highest initialized).packets ∧
      (RtpSlideShowHandler.ready s r ref highest initialized).handler.translator.initialized =
        s.handler.translator.initialized := by
  have hprep : Numbering (s.setHandler (s.handler.prepared s.packets r ref)) c k :=
    hn.setHandler (prepared_translator ..) (hn.keeps.prepared hv ..)
  have hinit : (s.handler.prepared s.packets r ref).translator.initialized =
      s.handler.translator.initialized := by rw [prepared_translator]
  have hresent : ∀ ref' ∈ s.handler.resent s.packets r ref, s.packets.Video ref' := by
    unfold resent
    split_ifs
    · exact hprep.keeps.stored
    · simp
  obtain ⟨h1, h2, h3⟩ := hprep.resend_all hresent
  exact ⟨h1.setHandler rfl ⟨h1.keeps.stored, h1.keeps.buffer⟩, h2, h3.trans hinit⟩

theorem Numbering.skip (hn : Numbering s c k) (r : SlideShowReading) (ref : ℕ) {x : UInt16}
    (hx : Follows c x) : Numbering (number record s r ref x true) (some x) k ∧
      (number record s r ref x true).handler.translator.initialized =
        s.handler.translator.initialized := by
  obtain ⟨hs, -, hi, hl⟩ := hn.stream.skip fun hi => hx _ (hn.next hi)
  have hnumber : number record s r ref x true =
      s.setHandler { s.handler with translator := (s.handler.translator.get x true).1 } := rfl
  rw [hnumber]
  exact ⟨⟨hs, hn.chain, fun h' => congrArg some (hl (hi.symm.trans h')).symm,
    hn.keeps.stored, hn.keeps.buffer⟩, hi⟩

/-- A packet that is not skipped is written with the number the translator has for it. -/
theorem number_valid (hv : (s.packets.packet ref).isVideo = true) (r : SlideShowReading)
    {x output : UInt16} (hr : (s.handler.translator.get x false).2 = ⟨x, output, .valid⟩) :
    (number record s r ref x false).handler = { s.handler with
        translator := (s.handler.translator.get x false).1, lastKeyframeSentTime := r.now } ∧
      (number record s r ref x false).packets = s.packets.modify ref (·.setSeqNumber output) ∧
      (number record s r ref x false).next.numbers = s.next.numbers ++ [output] := by
  set s' := (s.setHandler { s.handler with
    translator := (s.handler.translator.get x false).1 }).modify ref (·.setSeqNumber output)
  have hnumber : number record s r ref x false =
      (s'.setHandler { s'.handler with lastKeyframeSentTime := r.now }).fireWrite record .source
        ref := by
    unfold number
    dsimp only
    rw [hr]
    rfl
  rw [hnumber]
  refine ⟨rfl, rfl, (Written.numbers_append ?_ s.next .source).trans ?_⟩
  · simpa [s', Stage.modify, Stage.setHandler] using hv
  · simp [s', Stage.modify, Stage.setHandler]

theorem Numbering.forward (hn : Numbering s c k)
    (hk : (s.handler.translator.offset + 1).toNat ≤ 4095)
    (hfirst : s.handler.translator.initialized = false → k < 4095) (r : SlideShowReading)
    (hv : s.packets.Video ref) {x : UInt16} (hx : Follows c x) :
    Numbering (number record s r ref x false) (some x) 0 ∧
      (number record s r ref x false).handler.translator.initialized = true := by
  obtain ⟨output, hr, hf, hs, hi, hl⟩ :=
    hn.stream.forward_of_offset hk hfirst fun hi => hx _ (hn.next hi)
  obtain ⟨hhandler, hpackets, hnumbers⟩ := number_valid hv.2 r hr
  refine ⟨⟨?_, ?_, fun _ => ?_, ?_⟩, ?_⟩
  · rw [hnumbers, cursor_append, hhandler]
    exact hs
  · rw [hnumbers, chainFrom_append]
    exact ⟨hn.chain, hf, trivial⟩
  · rw [hhandler]
    exact congrArg some hl.symm
  · rw [hhandler, hpackets]
    have he := Packets.extends_setSeqNumber s.packets ref output
    exact ⟨fun ref hr => (hn.keeps.stored ref hr).mono he,
      fun ref hr => (hn.keeps.buffer ref hr).mono he⟩
  · rw [hhandler]
    exact hi

/-- Before the first packet is forwarded there is no keyframe to send again. -/
def Numbered (s : Show) (c : Option UInt16) : Prop :=
  ∃ k, Numbering s c k ∧
    (s.handler.translator.initialized = false → k = 0 ∧ s.handler.Empty)

theorem Numbered.start (now : ℤ) : Numbered (start now) none :=
  ⟨0, ⟨Streaming.empty, trivial, by simp [RtpSlideShowHandler.start], Keeps.empty _ now⟩,
    fun _ => ⟨rfl, rfl, fun _ hs => List.eq_of_mem_replicate hs⟩⟩

theorem Numbered.setSlideShowMode (hn : Numbered s c) (active : Bool) (now : ℤ) :
    Numbered (s.setHandler (s.handler.setSlideShowMode active now)) c := by
  obtain ⟨k, hn, hu⟩ := hn
  unfold RtpSlideShowHandler.setSlideShowMode
  split_ifs
  · exact ⟨k, hn, hu⟩
  · refine ⟨k, hn.setHandler rfl ⟨hn.keeps.stored, hn.keeps.resetKeyframeBuilding.buffer⟩,
      fun hi => ⟨(hu hi).1, (hu hi).2.stored, ?_⟩⟩
    exact (hu hi).2.resetKeyframeBuilding.buffer

/-- Another packet passes by. -/
theorem Numbered.other (hn : Numbered s c) (r : SlideShowReading)
    (hv : (s.packets.packet ref).isVideo = false) : Numbered (write record s r ref) c := by
  obtain ⟨k, hn, hu⟩ := hn
  have hwrite : write record s r ref = s.fireWrite record .other ref := by simp [write, hv]
  have hnumbers : (s.fireWrite record .other ref).next.numbers = s.next.numbers :=
    Written.numbers_append_other hv s.next .other
  rw [hwrite]
  refine ⟨k, ⟨?_, ?_, hn.next, hn.keeps⟩, hu⟩
  · rw [hnumbers]
    exact hn.stream
  · rw [hnumbers]
    exact hn.chain

/-- A packet that is skipped while nothing is kept leaves nothing behind; another one catches up
with the packets sent again. -/
theorem Numbered.video (hn : Numbered s c) (hv : s.packets.Video ref)
    (hx : Follows c (s.packets.packet ref).header.seqNumber)
    (hc : s.handler.skips s.packets r ref = false →
      (s.handler.translator.offset + .ofNat (s.handler.resent s.packets r ref).length + 1).toNat
        ≤ 4095) :
    Numbered (write record s r ref) (some (s.packets.packet ref).header.seqNumber) := by
  obtain ⟨k, hn, hu⟩ := hn
  obtain ⟨highest, initialized, hw⟩ := write_eq s r hv.2
  obtain ⟨h1, he, hi⟩ := hn.ready r hv highest initialized
  rw [hw]
  cases hskip : s.handler.skips s.packets r ref with
  | true =>
    obtain ⟨h2, hi'⟩ := h1.skip r ref hx
    refine ⟨_, h2, fun h => ?_⟩
    obtain ⟨rfl, hempty⟩ := hu (hi.symm.trans (hi'.symm.trans h))
    have hempty := hempty.prepared hskip
    have hready := ready_handler s r ref highest initialized
    rw [hempty.resent]
    refine ⟨rfl, ?_, ?_⟩
    · exact (congrArg storedKeyframe hready).trans hempty.stored
    · intro slot hs
      exact hempty.buffer slot ((congrArg keyframeBuffer hready) ▸ hs)
  | false =>
    have hoffset : (ready s r ref highest initialized).handler.translator.offset =
        s.handler.translator.offset + .ofNat (s.handler.resent s.packets r ref).length := by
      rw [h1.stream.offset, hn.stream.offset, UInt16.ofNat_add]
    have hfirst : s.handler.translator.initialized = false →
        k + (s.handler.resent s.packets r ref).length < 4095 := by
      intro h
      obtain ⟨rfl, hempty⟩ := hu h
      have := length_resent s.handler s.packets r ref
      rw [hempty.stored] at this
      simp at this
      omega
    obtain ⟨h2, hi'⟩ := h1.forward (hoffset ▸ hc hskip) (fun h => hfirst (hi.symm.trans h)) r
      (hv.mono he) hx
    exact ⟨0, h2, fun h => absurd hi' (by rw [h]; simp)⟩

theorem Numbered.step (hn : Numbered s c) {p : DataPacket} (r : SlideShowReading)
    (hx : p.isVideo = true → Follows c p.header.seqNumber) (hc : Catches s (.packet p r)) :
    Numbered (step s (.packet p r)).1 (if p.isVideo then some p.header.seqNumber else c) := by
  have halloc : Numbered { s with packets := (s.packets.alloc p).1 } c := by
    obtain ⟨k, hn, hu⟩ := hn
    exact ⟨k, hn.alloc p, hu⟩
  cases hv : p.isVideo with
  | true =>
    have hvideo : (s.packets.alloc p).1.Video (s.packets.alloc p).2 :=
      ⟨Nat.lt_succ_self _, by rw [Packets.alloc_packet, hv]⟩
    have := halloc.video (r := r) hvideo (by simpa using hx hv) (hc hv)
    rw [Packets.alloc_packet] at this
    exact this
  | false =>
    have hother : ((s.packets.alloc p).1.packet (s.packets.alloc p).2).isVideo = false := by
      rw [Packets.alloc_packet, hv]
    exact halloc.other r hother

theorem Numbered.run (hn : Numbered s c) {events : List Event} (hl : Lossless c events)
    (hc : Runs.Steps RtpSlideShowHandler.step Catches s events) :
    ∃ c', Numbered (Runs.final RtpSlideShowHandler.step s events) c' := by
  induction events generalizing s c with
  | nil => exact ⟨c, hn⟩
  | cons e events ih =>
    cases e with
    | setSlideShowMode active now => exact ih (hn.setSlideShowMode active now) hl hc.2
    | packet p r =>
      cases hv : p.isVideo with
      | true =>
        simp only [Lossless, hv, if_true] at hl
        refine ih (hn.step r (fun _ => hl.1) hc.1) ?_ hc.2
        simpa [hv] using hl.2
      | false =>
        simp only [Lossless, hv] at hl
        refine ih (hn.step r (by simp [hv]) hc.1) ?_ hc.2
        simpa [hv] using hl

/-- The numbers written are consecutive as long as each packet forwarded catches up with the
packets sent again since the last one. -/
theorem resent_consecutive (now : ℤ) (events : List Event) (hl : Lossless none events)
    (hc : Runs.Steps step Catches (start now) events) :
    Consecutive (Written.numbers (Runs.final step (start now) events).next) := by
  obtain ⟨c, k, hn, -⟩ := (Numbered.start now).run hl hc
  exact chainFrom_none_iff.mp hn.chain


/-- A keyframe of one packet, sent again twice while slideshow mode is active. -/
theorem resent_consecutive_twice : Consecutive (Written.numbers (Runs.final step (start 0)
    [.packet { header := { seqNumber := 65535, marker := true }, isKeyframe := true }
        { codec := some "VP8" },
      .setSlideShowMode true 0,
      .packet { header := { seqNumber := 0, marker := true }, isKeyframe := true }
        { codec := some "VP8" },
      .packet { header := { seqNumber := 1, timestamp := 1 } }
        { codec := some "VP8", resendTime := 6000000000 },
      .packet { header := { seqNumber := 2, timestamp := 2 } }
        { codec := some "VP8", resendTime := 12000000000 },
      .setSlideShowMode false 12000000000,
      .packet { header := { seqNumber := 3, timestamp := 3 } } {}]).next) :=
  resent_consecutive 0 _ (by decide) (by decide)


/-! A picture that stands still for long. A packet is skipped every six seconds, and
the keyframe, which is one packet, goes out once more each time. -/

def still (i : ℕ) : Event :=
  .packet { header := { seqNumber := .ofNat i, timestamp := 1 } }
    { codec := some "VP8", resendTime := 6000000000 * i }

/-- The picture was sent again `i` times since the last packet was forwarded. -/
structure Idle (s : Show) (i : ℕ) : Prop where
  active : s.handler.slideshowIsActive = true
  building : s.handler.isBuildingKeyframe = false
  stored : s.handler.storedKeyframe.length = 1
  timestamp : s.handler.currentKeyframeTimestamp = 0
  sent : s.handler.lastKeyframeSentTime = 6000000000 * i
  initialized : s.handler.translator.initialized = true
  numbering : Numbering s (some (.ofNat i)) i

theorem Idle.step {i : ℕ} (hi : Idle s i) :
    Idle (RtpSlideShowHandler.step s (still (i + 1))).1 (i + 1) := by
  set p : DataPacket := { header := { seqNumber := .ofNat (i + 1), timestamp := 1 } } with hp
  set r : SlideShowReading := { codec := some "VP8", resendTime := 6000000000 * ↑(i + 1) } with hr
  set s₁ : Show := { s with packets := (s.packets.alloc p).1 } with hs₁
  set ref := (s.packets.alloc p).2
  have hpacket : s₁.packets.packet ref = p := Packets.alloc_packet ..
  have hv : s₁.packets.Video ref := ⟨Nat.lt_succ_self _, by rw [hpacket]; rfl⟩
  have hchecked : s₁.handler.checked s₁.packets r ref =
      ({ s.handler with lastTimestampReceived := 1 }, false) := by
    rw [checked, hpacket]
    simp [checkKeyframe, isVP8Keyframe, hp, hr, hs₁, hi.timestamp]
  have hprep : s₁.handler.prepared s₁.packets r ref =
      { s.handler with lastTimestampReceived := 1 } := by
    rw [prepared, hchecked]
    simp [RtpSlideShowHandler.stored, hi.active, hi.building]
  have hdue : s₁.handler.due s₁.packets r ref = true := by
    rw [due, hprep]
    simp only [hi.active, hi.sent, hr, Bool.true_and, decide_eq_true_eq, kFallbackKeyframeTimeout]
    omega
  have hskip : s₁.handler.skips s₁.packets r ref = true := by
    rw [skips, hchecked]
    simp [hi.active]
  have hresent : s₁.handler.resent s₁.packets r ref = s.handler.storedKeyframe := by
    rw [resent, hdue, if_pos rfl, hprep]
  obtain ⟨highest, initialized, hw⟩ := write_eq s₁ r hv.2
  have hready := ready_handler s₁ r ref highest initialized
  obtain ⟨h1, -, hinit⟩ := (hi.numbering.alloc p).ready r hv highest initialized
  obtain ⟨h2, hinit'⟩ := h1.skip r ref (x := .ofNat (i + 1)) (by simp)
  have hstep : (RtpSlideShowHandler.step s (still (i + 1))).1 =
      number record (ready s₁ r ref highest initialized) r ref (.ofNat (i + 1)) true := by
    rw [← hskip]
    refine hw.trans ?_
    rw [hpacket]
  rw [hstep]
  refine ⟨?_, ?_, ?_, ?_, ?_, ?_, ?_⟩
  · show (ready s₁ r ref highest initialized).handler.slideshowIsActive = true
    rw [hready, hprep]
    exact hi.active
  · show (ready s₁ r ref highest initialized).handler.isBuildingKeyframe = false
    rw [hready, hprep]
    exact hi.building
  · show (ready s₁ r ref highest initialized).handler.storedKeyframe.length = 1
    rw [hready, hprep]
    exact hi.stored
  · show (ready s₁ r ref highest initialized).handler.currentKeyframeTimestamp = 0
    rw [hready, hprep]
    exact hi.timestamp
  · show (ready s₁ r ref highest initialized).handler.lastKeyframeSentTime = _
    rw [hready, hdue]
    rfl
  · exact hinit'.trans (hinit.trans hi.initialized)
  · rw [hresent, hi.stored] at h2
    exact h2

theorem Idle.run {i : ℕ} (hi : Idle s i) (n : ℕ) :
    Idle (Runs.final RtpSlideShowHandler.step s ((List.range' (i + 1) n).map still)) (i + n) := by
  induction n generalizing s i with
  | zero => exact hi
  | succ n ih =>
    rw [List.range'_succ, List.map_cons, Runs.final_cons, Nat.add_comm n, ← Nat.add_assoc]
    exact ih hi.step

/-- The keyframe is stored when slideshow mode is active. -/
def keyframe : List Event :=
  [.setSlideShowMode true 0,
    .packet { header := { marker := true }, isKeyframe := true } { codec := some "VP8" }]

theorem idle_keyframe : Idle (Runs.final step (start 0) keyframe) 0 where
  active := by decide
  building := by decide
  stored := by decide
  timestamp := by decide +kernel
  sent := by decide
  initialized := by decide
  numbering := by
    have hnumbers : (Runs.final step (start 0) keyframe).next.numbers = [0] := by decide
    refine ⟨?_, ?_, ?_, ?_⟩
    · rw [hnumbers]
      refine ⟨by decide, fun _ => by decide, by simp, fun p hp => ?_⟩
      rw [← Option.some.inj hp]
      exact ⟨by decide, .inl (by decide)⟩
    · rw [hnumbers]
      simp
    · intro _
      decide
    · obtain ⟨c, k, hn, -⟩ : ∃ c, Numbered (Runs.final step (start 0) keyframe) c :=
        (Numbered.start 0).run (by decide) (by decide)
      exact hn.keeps

theorem lossless_still (i n : ℕ) (events : List Event)
    (hl : Lossless (some (.ofNat (i + n))) events) :
    Lossless (some (.ofNat i)) ((List.range' (i + 1) n).map still ++ events) := by
  induction n generalizing i with
  | zero => exact hl
  | succ n ih =>
    rw [List.range'_succ, List.map_cons, List.cons_append]
    refine ⟨?_, ih (i + 1) ?_⟩
    · simp
    · rw [Nat.add_assoc, Nat.add_comm 1]
      exact hl


/-- Without slideshow mode a packet is forwarded with the number the translator has for it. -/
theorem step_inactive (ha : s.handler.slideshowIsActive = false) {p : DataPacket}
    (hv : p.isVideo = true) (r : SlideShowReading) {output : UInt16}
    (hr : (s.handler.translator.get p.header.seqNumber false).2 =
      ⟨p.header.seqNumber, output, .valid⟩) :
    (step s (.packet p r)).1.handler.translator =
        (s.handler.translator.get p.header.seqNumber false).1 ∧
      (step s (.packet p r)).1.handler.slideshowIsActive = false ∧
      (step s (.packet p r)).1.next.numbers = s.next.numbers ++ [output] := by
  set s₁ : Show := { s with packets := (s.packets.alloc p).1 } with hs₁
  set ref := (s.packets.alloc p).2
  have hpacket : s₁.packets.packet ref = p := Packets.alloc_packet ..
  have hchecked : (s₁.handler.checked s₁.packets r ref).1.slideshowIsActive = false := by
    rw [checked, slideshowIsActive_checkKeyframe]
    exact ha
  have hskip : s₁.handler.skips s₁.packets r ref = false := by
    simp only [skips, hchecked, Bool.false_and]
  have hprep : (s₁.handler.prepared s₁.packets r ref).slideshowIsActive = false := by
    simp only [prepared, hchecked, Bool.false_eq_true, if_false]
  have hresent : s₁.handler.resent s₁.packets r ref = [] := by
    simp only [resent, due, hprep, Bool.false_and, Bool.false_eq_true, if_false]
  obtain ⟨highest, initialized, hw⟩ := write_eq s₁ r (by rw [hpacket, hv])
  have hready := ready_handler s₁ r ref highest initialized
  have hunchanged : (ready s₁ r ref highest initialized).handler.translator =
      s.handler.translator := by
    rw [ready, hresent]
    exact prepared_translator ..
  rw [← hunchanged] at hr ⊢
  have hstep : (step s (.packet p r)).1 =
      number record (ready s₁ r ref highest initialized) r ref p.header.seqNumber false := by
    rw [← hskip, ← congrArg (·.header.seqNumber) hpacket]
    exact hw
  have hvideo : ((ready s₁ r ref highest initialized).packets.packet ref).isVideo = true := by
    rw [ready, hresent]
    show (s₁.packets.packet ref).isVideo = true
    rw [hpacket, hv]
  obtain ⟨hhandler, -, hnumbers⟩ := number_valid hvideo r hr
  rw [hstep, hhandler, hnumbers]
  refine ⟨rfl, ?_, ?_⟩
  · show (ready s₁ r ref highest initialized).handler.slideshowIsActive = false
    rw [hready]
    exact hprep
  · rw [ready, hresent]
    rfl

theorem lossless_keyframe {events : List Event} (hl : Lossless (some 0) events) :
    Lossless none (keyframe ++ events) := by
  simp only [keyframe, List.cons_append, List.nil_append, Lossless]
  rw [if_pos (by decide)]
  exact ⟨by simp, hl⟩

/-- Slideshow mode ends, and the stream goes on. -/
def goOn : List Event :=
  [.setSlideShowMode false 0,
    .packet { header := { seqNumber := 4096 } } {}, .packet { header := { seqNumber := 4097 } } {}]

/-- After 4095 times the first packet is too far ahead to become the last output, so the second
one goes on from the last output before. -/
theorem Idle.not_consecutive {n : ℕ} (hi : Idle s n) (hn : n = 4095) :
    ¬Consecutive (Written.numbers (Runs.final RtpSlideShowHandler.step s goOn).next) := by
  set t := s.handler.translator with ht
  have hoffset : t.offset = 4095 := by
    rw [hi.numbering.stream.offset, hn]
    rfl
  have hlast : t.lastInputSequenceNumber = 4095 := by
    rw [← Option.some.inj (hi.numbering.next hi.initialized), hn]
    rfl
  have hmode : (s.handler.setSlideShowMode false 0).slideshowIsActive = false ∧
      (s.handler.setSlideShowMode false 0).translator = t := by
    simp [setSlideShowMode, hi.active, RtpSlideShowHandler.resetKeyframeBuilding, ht]
  have hahead : ahead t.lastOutputSequenceNumber (t.frontier + 1) = 4096 := by
    rw [SequenceNumberTranslator.frontier, hoffset, UInt16.add_assoc]
    exact ahead_add_ofNat t.lastOutputSequenceNumber 4096
  have hfar : sequenceNumberLessThan t.lastOutputSequenceNumber (t.frontier + 1) = false := by
    rw [sequenceNumberLessThan_false_iff, hahead]
    omega
  obtain ⟨hr, ho, hl, hi', hin, hw⟩ := get_next hi.initialized
    (hi.numbering.stream.window hi.initialized) 4096 (by rw [hlast]; rfl)
  obtain ⟨hr₂, -⟩ := get_next hi' (hin.symm ▸ hw) 4097 (by rw [hin]; rfl)
  have hr₁ : ((s.handler.setSlideShowMode false 0).translator.get 4096 false).2 =
      ⟨4096, t.frontier + 1, .valid⟩ := by
    rw [hmode.2, hr]
  obtain ⟨ht₁, ha₁, hn₁⟩ := step_inactive (s := s.setHandler (s.handler.setSlideShowMode false 0))
    (p := { header := { seqNumber := 4096 } }) hmode.1 rfl {} hr₁
  have ht₁ := ht₁.trans (congrArg (fun t => (t.get 4096 false).1) hmode.2)
  obtain ⟨-, -, hn₂⟩ := step_inactive (p := { header := { seqNumber := 4097 } }) ha₁ rfl {}
    (ht₁.symm ▸ hr₂)
  intro hc
  have hnumbers : Written.numbers (Runs.final RtpSlideShowHandler.step s goOn).next =
      s.next.numbers ++ [t.frontier + 1] ++ [(t.get 4096 false).1.frontier + 1] := by
    refine hn₂.trans ?_
    rw [hn₁, ht₁]
    rfl
  have hnext : (t.get 4096 false).1.frontier + 1 = t.frontier + 1 + 1 := by
    rw [hnumbers, Consecutive, List.isChain_append] at hc
    exact hc.2.2 _ (by simp) _ (by simp)
  have hback : (t.get 4096 false).1.frontier = t.lastOutputSequenceNumber := by
    rw [SequenceNumberTranslator.frontier, ho, hl, hfar, UInt16.add_zero, if_neg Bool.false_ne_true]
  rw [hback] at hnext
  have hsame : t.lastOutputSequenceNumber = t.frontier + 1 := by grind
  rw [← hsame, ahead_self] at hahead
  omega

theorem not_resent_consecutive : ¬∀ (now : ℤ) (events : List Event), Lossless none events →
    Consecutive (Written.numbers (Runs.final step (start now) events).next) := by
  intro h
  obtain ⟨n, hn⟩ : ∃ n, n = 4095 := ⟨_, rfl⟩
  have hi := idle_keyframe.run n
  have hl : Lossless none (keyframe ++ ((List.range' 1 n).map still ++ goOn)) := by
    apply lossless_keyframe
    apply lossless_still 0 n
    subst hn
    decide
  have hc := h 0 _ hl
  rw [Runs.final_append, Runs.final_append] at hc
  exact hi.not_consecutive (by omega) hc


end KkLicode.Rtp.RtpSlideShowHandler
