import KkLicode.Rtp.RtpSlideShowHandler
import KkLicode.Rtp.TranslatorStream

/-! What leaves the slideshow handler. Skipped packets take no number and the
packets of a stored keyframe take generated ones, so what lies behind the handler
is given consecutive numbers in every mode. -/

namespace KkLicode.Rtp.RtpSlideShowHandler

open Base.Streams SequenceNumberTranslator

/-! ### The packets the handler keeps -/

/-- All the packets kept are in `P`. -/
structure Keeps (h : RtpSlideShowHandler) (P : ℕ → Prop) : Prop where
  stored : ∀ ref ∈ h.storedKeyframe, P ref
  buffer : ∀ ref, some ref ∈ h.keyframeBuffer → P ref

variable {h : RtpSlideShowHandler} {P : ℕ → Prop}

theorem Keeps.empty (P : ℕ → Prop) (now : ℤ) : Keeps { lastKeyframeSentTime := now } P where
  stored := by simp
  buffer := by simp [List.mem_replicate]

theorem Keeps.imp {Q : ℕ → Prop} (hk : Keeps h P) (hpq : ∀ ref, P ref → Q ref) : Keeps h Q where
  stored ref hr := hpq ref (hk.stored ref hr)
  buffer ref hr := hpq ref (hk.buffer ref hr)

theorem Keeps.resetKeyframeBuilding (hk : Keeps h P) : Keeps h.resetKeyframeBuilding P where
  stored := hk.stored
  buffer := by simp [RtpSlideShowHandler.resetKeyframeBuilding, List.mem_replicate]

theorem Keeps.storeKeyframePacket (hk : Keeps h P) {ref : ℕ} (hr : P ref) (seqNum : UInt16) :
    Keeps (h.storeKeyframePacket seqNum ref) P where
  stored := hk.stored
  buffer ref' hm := by
    rcases List.mem_or_eq_of_mem_set hm with hm | hm
    · exact hk.buffer ref' hm
    · rw [Option.some.inj hm]
      exact hr

theorem mem_collectKeyframe {packets : Packets} {timestamp : UInt32} {buffer : List (Option ℕ)}
    {ref : ℕ} (hm : ref ∈ (collectKeyframe packets timestamp buffer).1) : some ref ∈ buffer := by
  induction buffer with
  | nil => simp [collectKeyframe] at hm
  | cons slot buffer ih =>
    cases slot with
    | none => simp [collectKeyframe] at hm
    | some ref' =>
      rw [collectKeyframe] at hm
      split_ifs at hm with h1 h2
      · simp at hm
      · simp_all
      · rcases List.mem_cons.mp hm with rfl | hm
        · exact List.mem_cons_self
        · exact List.mem_cons_of_mem _ (ih hm)

/-- A keyframe that is complete replaces the stored one. -/
theorem Keeps.consolidateKeyframe (hk : Keeps h P) (packets : Packets) :
    Keeps (h.consolidateKeyframe packets) P := by
  unfold RtpSlideShowHandler.consolidateKeyframe
  dsimp only
  split_ifs with h1 h2
  · exact ⟨hk.stored, (hk.resetKeyframeBuilding).buffer⟩
  · refine Keeps.resetKeyframeBuilding ⟨fun ref hr => ?_, hk.buffer⟩
    exact hk.buffer ref (List.mem_of_mem_take (mem_collectKeyframe hr))
  · exact ⟨hk.stored, hk.buffer⟩

theorem Keeps.checkKeyframe (hk : Keeps h P) (codec : Option String) (packet : DataPacket) :
    Keeps (h.checkKeyframe codec packet).1 P := by
  unfold RtpSlideShowHandler.checkKeyframe isVP8Keyframe isVP9Keyframe
  dsimp only
  split_ifs
  all_goals first
    | exact ⟨hk.stored, hk.buffer⟩
    | exact ⟨hk.stored, hk.resetKeyframeBuilding.buffer⟩

/-! ### The translator is left to the numbering -/

@[simp] theorem checkKeyframe_translator (h : RtpSlideShowHandler) (codec : Option String)
    (packet : DataPacket) : (h.checkKeyframe codec packet).1.translator = h.translator := by
  unfold RtpSlideShowHandler.checkKeyframe isVP8Keyframe isVP9Keyframe
  dsimp only
  split_ifs <;> rfl

@[simp] theorem consolidateKeyframe_translator (h : RtpSlideShowHandler) (packets : Packets) :
    (h.consolidateKeyframe packets).translator = h.translator := by
  unfold RtpSlideShowHandler.consolidateKeyframe
  dsimp only
  split_ifs <;> rfl

/-! ### The numbers -/

variable {D : Type} {ctx : Context D} {log : D → List Origin}
  {I : Option UInt16 → D → Packets → Prop} {c : Option UInt16}
  {s : Stage RtpSlideShowHandler D}

/-- The handler was given numbers up to `c`; what lies behind it was given numbers up to `o` and
expects the one the translator has next. -/
structure Showing (log : D → List Origin) (I : Option UInt16 → D → Packets → Prop)
    (s : Stage RtpSlideShowHandler D) (c o : Option UInt16) : Prop where
  stream : s.handler.translator.Streaming o (ownCount 0 (log s.next))
  behind : I o s.next s.packets
  next : s.handler.translator.initialized = true →
    c = some s.handler.translator.lastInputSequenceNumber

/-- That is so as long as few packets are sent again between two packets. -/
structure Sliding (log : D → List Origin) (I : Option UInt16 → D → Packets → Prop)
    (s : Stage RtpSlideShowHandler D) (c : Option UInt16) : Prop where
  showing : FewOwn 0 (log s.next) → ∃ o, Showing log I s c o
  keeps : s.handler.Keeps s.packets.Video

theorem Sliding.setHandler (hs : Sliding log I s c) {h : RtpSlideShowHandler}
    (ht : h.translator = s.handler.translator) (hk : h.Keeps s.packets.Video) :
    Sliding log I (s.setHandler h) c where
  showing hf := by
    obtain ⟨o, h1, h2, h3⟩ := hs.showing hf
    refine ⟨o, ?_, h2, ?_⟩
    · show h.translator.Streaming o _
      rw [ht]
      exact h1
    · show h.translator.initialized = true → c = some h.translator.lastInputSequenceNumber
      rw [ht]
      exact h3
  keeps := hk

theorem Sliding.extend (hc : Carries ctx I) (hs : Sliding log I s c) {packets : Packets}
    (he : Packets.Extends s.packets packets) : Sliding log I { s with packets := packets } c where
  showing hf := by
    obtain ⟨o, h1, h2, h3⟩ := hs.showing hf
    exact ⟨o, h1, hc.mono h2 he, h3⟩
  keeps := hs.keeps.imp fun _ hv => hv.mono he

theorem setSlideShowMode_sliding (hs : Sliding log I s c) (active : Bool) (now : ℤ) :
    Sliding log I (s.setHandler (s.handler.setSlideShowMode active now)) c := by
  refine hs.setHandler ?_ ?_
  · unfold setSlideShowMode
    split_ifs <;> rfl
  · unfold setSlideShowMode
    split_ifs
    · exact hs.keeps
    · exact ⟨hs.keeps.stored, hs.keeps.resetKeyframeBuilding.buffer⟩

/-- A packet is given to what lies behind the handler. -/
theorem Sliding.fireWrite (hc : Carries ctx I)
    (hlog : ∀ d ps origin ref, log (ctx d ps origin ref).1 = log d ++ [origin])
    (hs : Sliding log I s c) {s' : Stage RtpSlideShowHandler D} (hn : s'.next = s.next)
    (he : Packets.Extends s.packets s'.packets) (hk : s'.handler.Keeps s.packets.Video)
    {origin : Origin} {ref : ℕ} (hv : s.packets.Video ref) {c' : Option UInt16}
    (hstep : ∀ o, Showing log I s c o → FewOwn (ownCount 0 (log s.next)) [origin] →
      ∃ y, (s'.packets.packet ref).header.seqNumber = y ∧ Follows o y ∧
        s'.handler.translator.Streaming (some y) (ownCount (ownCount 0 (log s.next)) [origin]) ∧
        (s'.handler.translator.initialized = true →
          c' = some s'.handler.translator.lastInputSequenceNumber)) :
    Sliding log I (s'.fireWrite ctx origin ref) c' ∧
      Packets.Extends s.packets (s'.fireWrite ctx origin ref).packets := by
  have he' : Packets.Extends s.packets (s'.fireWrite ctx origin ref).packets :=
    he.trans (hc.keeps s'.next s'.packets origin ref)
  refine ⟨⟨fun hf => ?_, hk.imp fun _ hv => hv.mono he'⟩, he'⟩
  have hnext : log (s'.fireWrite ctx origin ref).next = log s.next ++ [origin] :=
    hn ▸ hlog s'.next s'.packets origin ref
  rw [hnext, fewOwn_append] at hf
  obtain ⟨o, ho⟩ := hs.showing hf.1
  obtain ⟨y, rfl, hfo, hst, hl⟩ := hstep o ho hf.2
  refine ⟨some (s'.packets.packet ref).header.seqNumber, ?_, ?_, hl⟩
  · rw [hnext, ownCount_append]
    exact hst
  · exact hc.video origin (hn ▸ hc.mono ho.behind he) (hv.mono he) hfo

/-- A packet of the stored keyframe goes out with a generated number. -/
theorem resend_sliding (hc : Carries ctx I)
    (hlog : ∀ d ps origin ref, log (ctx d ps origin ref).1 = log d ++ [origin])
    (hs : Sliding log I s c) {ref : ℕ} (hv : s.packets.Video ref) :
    Sliding log I (resend ctx s ref) c ∧ Packets.Extends s.packets (resend ctx s ref).packets := by
  unfold resend
  dsimp only
  refine hs.fireWrite hc hlog ?_ ?_ ?_ hv fun o ho _ => ?_
  · rfl
  · exact (Packets.extends_setTimestamp s.packets ref _).trans (Packets.extends_setSeqNumber ..)
  · exact ⟨hs.keeps.stored, hs.keeps.buffer⟩
  · obtain ⟨hg, hr⟩ := ho.stream.generate
    refine ⟨_, ?_, ho.stream.follows, hg, ho.next⟩
    simp [Stage.modify, Stage.setHandler, hr]

theorem maybeSendStoredKeyframe_sliding (hc : Carries ctx I)
    (hlog : ∀ d ps origin ref, log (ctx d ps origin ref).1 = log d ++ [origin])
    (hs : Sliding log I s c) (now : ℤ) :
    Sliding log I (maybeSendStoredKeyframe ctx s now) c ∧
      Packets.Extends s.packets (maybeSendStoredKeyframe ctx s now).packets := by
  have hloop : ∀ (l : List ℕ) (s : Stage RtpSlideShowHandler D), Sliding log I s c →
      (∀ ref ∈ l, s.packets.Video ref) → Sliding log I (l.foldl (resend ctx) s) c ∧
        Packets.Extends s.packets (l.foldl (resend ctx) s).packets := by
    intro l
    induction l with
    | nil => exact fun s hs _ => ⟨hs, Packets.Extends.refl _⟩
    | cons ref l ih =>
      intro s hs hl
      obtain ⟨h1, h2⟩ := resend_sliding hc hlog hs (hl ref List.mem_cons_self)
      obtain ⟨h3, h4⟩ := ih _ h1 fun ref' hr => (hl ref' (List.mem_cons_of_mem _ hr)).mono h2
      exact ⟨h3, h2.trans h4⟩
  unfold maybeSendStoredKeyframe
  split_ifs
  · obtain ⟨h1, h2⟩ := hloop _ s hs hs.keeps.stored
    exact ⟨h1.setHandler rfl ⟨h1.keeps.stored, h1.keeps.buffer⟩, h2⟩
  · exact ⟨hs, Packets.Extends.refl _⟩

theorem showSlide_sliding (hc : Carries ctx I)
    (hlog : ∀ d ps origin ref, log (ctx d ps origin ref).1 = log d ++ [origin])
    (hs : Sliding log I s c) (r : SlideShowReading) {ref : ℕ} (hv : s.packets.Video ref)
    (isKeyframe : Bool) : Sliding log I (showSlide ctx s r ref isKeyframe) c ∧
      Packets.Extends s.packets (showSlide ctx s r ref isKeyframe).packets := by
  unfold showSlide
  dsimp only
  refine maybeSendStoredKeyframe_sliding hc hlog (s := s.setHandler _) (hs.setHandler ?_ ?_) _
  · split_ifs <;> simp [storeKeyframePacket]
  · have h1 := hs.keeps.storeKeyframePacket hv (s.packets.packet ref).header.seqNumber
    split_ifs
    · exact h1.consolidateKeyframe _
    · exact h1
    · exact hs.keeps.consolidateKeyframe _
    · exact hs.keeps

/-- The packet is skipped, or forwarded with the number that goes on from the last one. -/
theorem number_sliding (hc : Carries ctx I)
    (hlog : ∀ d ps origin ref, log (ctx d ps origin ref).1 = log d ++ [origin])
    (hs : Sliding log I s c) (r : SlideShowReading) {ref : ℕ} (hv : s.packets.Video ref)
    {x : UInt16} (hx : Follows c x) (skip : Bool) :
    Sliding log I (number ctx s r ref x skip) (some x) ∧
      Packets.Extends s.packets (number ctx s r ref x skip).packets := by
  have hin : ∀ {o}, Showing log I s c o → InOrder s.handler.translator x :=
    fun ho hi => hx _ (ho.next hi)
  unfold number
  dsimp only
  split_ifs with hsend
  · simp only [Bool.and_eq_true, Bool.not_eq_true', decide_eq_true_eq] at hsend
    obtain ⟨rfl, -⟩ := hsend
    refine hs.fireWrite hc hlog ?_ ?_ ?_ hv fun o ho hf => ?_
    · rfl
    · exact Packets.extends_setSeqNumber ..
    · exact ⟨hs.keeps.stored, hs.keeps.buffer⟩
    · obtain ⟨y, hy, hfo, hst, -, hlast⟩ := ho.stream.forward hf.1 (hin ho)
      refine ⟨y, ?_, hfo, hst, fun _ => congrArg some hlast.symm⟩
      simp [Stage.modify, Stage.setHandler, hy]
  · refine ⟨⟨fun hf => ?_, hs.keeps.stored, hs.keeps.buffer⟩, Packets.Extends.refl _⟩
    obtain ⟨o, ho⟩ := hs.showing hf
    cases skip with
    | true =>
      obtain ⟨hst, -, hi, hlast⟩ := ho.stream.skip (hin ho)
      exact ⟨o, hst, ho.behind, fun h' => congrArg some (hlast (hi.symm.trans h')).symm⟩
    | false =>
      -- a packet in order has a valid number, so it was sent
      have := ho.stream.forward_valid (hin ho)
      simp [this] at hsend

/-- A video packet of the stream. -/
theorem write_video (hc : Carries ctx I)
    (hlog : ∀ d ps origin ref, log (ctx d ps origin ref).1 = log d ++ [origin])
    (hs : Sliding log I s c) (r : SlideShowReading) {ref : ℕ} (hv : s.packets.Video ref)
    (hx : Follows c (s.packets.packet ref).header.seqNumber) :
    Sliding log I (write ctx s r ref) (some (s.packets.packet ref).header.seqNumber) ∧
      Packets.Extends s.packets (write ctx s r ref).packets := by
  set check := ({ s.handler with
    lastTimestampReceived := (s.packets.packet ref).header.timestamp } :
      RtpSlideShowHandler).checkKeyframe r.codec (s.packets.packet ref) with hcheck
  -- in slideshow mode the stored keyframe may go out first
  set s' := if check.1.slideshowIsActive then
    showSlide ctx (s.setHandler check.1) r ref check.2 else s.setHandler check.1 with hs'
  have hw : write ctx s r ref = number ctx (s'.setHandler
      (s'.handler.maybeUpdateHighestSeqNum (s'.packets.packet ref).header.seqNumber)) r ref
      (s.packets.packet ref).header.seqNumber (check.1.slideshowIsActive && !check.2) := by
    unfold write
    dsimp only
    rw [if_neg (by simp [hv.2])]
    rfl
  have h1 : Sliding log I (s.setHandler check.1) c := by
    refine hs.setHandler ?_ ?_
    · rw [hcheck, checkKeyframe_translator]
    · rw [hcheck]
      apply Keeps.checkKeyframe
      exact ⟨hs.keeps.stored, hs.keeps.buffer⟩
  have h2 : Sliding log I s' c ∧ Packets.Extends s.packets s'.packets := by
    rw [hs']
    split_ifs
    · exact showSlide_sliding hc hlog h1 r hv _
    · exact ⟨h1, Packets.Extends.refl _⟩
  have h3 : Sliding log I (s'.setHandler
      (s'.handler.maybeUpdateHighestSeqNum (s'.packets.packet ref).header.seqNumber)) c := by
    refine h2.1.setHandler ?_ ?_
    · unfold maybeUpdateHighestSeqNum
      split_ifs <;> rfl
    · unfold maybeUpdateHighestSeqNum
      split_ifs <;> exact ⟨h2.1.keeps.stored, h2.1.keeps.buffer⟩
  obtain ⟨h4, he⟩ := number_sliding hc hlog h3 r (hv.mono h2.2) hx
    (check.1.slideshowIsActive && !check.2)
  rw [hw]
  exact ⟨h4, h2.2.trans he⟩

/-- Another packet passes by. -/
theorem write_other (hc : Carries ctx I)
    (hlog : ∀ d ps origin ref, log (ctx d ps origin ref).1 = log d ++ [origin])
    (hs : Sliding log I s c) (r : SlideShowReading) {ref : ℕ}
    (hv : (s.packets.packet ref).isVideo = false) :
    Sliding log I (write ctx s r ref) c ∧
      Packets.Extends s.packets (write ctx s r ref).packets := by
  have hw : write ctx s r ref = s.fireWrite ctx .other ref := by simp [write, hv]
  have he := hc.keeps s.next s.packets .other ref
  rw [hw]
  refine ⟨⟨fun hf => ?_, hs.keeps.imp fun _ hv => hv.mono he⟩, he⟩
  change FewOwn 0 (log (ctx s.next s.packets .other ref).1) at hf
  rw [hlog, fewOwn_append] at hf
  obtain ⟨o, h1, h2, h3⟩ := hs.showing hf.1
  refine ⟨o, ?_, hc.other .other h2 hv, h3⟩
  show Streaming _ _ (ownCount 0 (log (ctx s.next s.packets .other ref).1))
  rw [hlog, ownCount_append]
  exact h1

end KkLicode.Rtp.RtpSlideShowHandler
