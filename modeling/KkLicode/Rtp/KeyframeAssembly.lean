import KkLicode.Rtp.SlideShowNumbers

/-! How a keyframe is put together in slideshow mode. A packet of a keyframe is kept
at its distance from the first one. When an earlier packet of a VP9 keyframe comes
late the first number is lowered, but the packets kept stay where they are. -/

namespace KkLicode.Rtp.RtpSlideShowHandler

open Base Base.Serial Base.Streams

/-- The packets that were written, as they were then. -/
def given (events : List Event) : List DataPacket :=
  events.filterMap fun
    | .packet p _ => some p
    | .setSlideShowMode _ _ => none

/-- The packets of a keyframe. -/
structure IsKeyframe (l : List DataPacket) : Prop where
  numbers : Consecutive (l.map (·.header.seqNumber))
  timestamp : ∀ p ∈ l, ∀ q ∈ l, p.header.timestamp = q.header.timestamp
  marker : ∀ p ∈ l.getLast?, p.header.marker = true

/-- Every slot of the buffer holds the packet of its number, and the stored packets are those of a
keyframe. -/
structure Assembled (given : List DataPacket) (h : RtpSlideShowHandler) : Prop where
  slots : ∀ i ref : ℕ, h.keyframeBuffer[i]? = some (some ref) →
    ∃ p, given[ref]? = some p ∧ p.header.seqNumber = h.firstKeyframeSeqNum + .ofNat i
  keyframe : ∃ l, h.storedKeyframe.map (given[·]?) = l.map some ∧ IsKeyframe l

/-- A packet that lowers the first number finds no packet behind the first slot. -/
def Aligned (s : Show) : Event → Prop
  | .packet p r => p.isVideo = true → r.codec = some "VP9" → p.isKeyframe = true →
      p.header.timestamp = s.handler.currentKeyframeTimestamp →
      sequenceNumberLessThan p.header.seqNumber s.handler.firstKeyframeSeqNum = true →
      ∀ slot ∈ s.handler.keyframeBuffer.tail, slot = none
  | .setSlideShowMode _ _ => True

instance (s : Show) : ∀ e, Decidable (Aligned s e)
  | .packet _ _ => inferInstanceAs (Decidable (_ → _ → _ → _ → _ → _))
  | .setSlideShowMode _ _ => isTrue trivial

/-! ### The buffer -/

/-- The packet was given with this number, and its timestamp and marker are still the same. -/
def Fits (given : List DataPacket) (packets : Packets) (number : UInt16) (ref : ℕ) : Prop :=
  ∃ p, given[ref]? = some p ∧ p.header.seqNumber = number ∧
    (packets.packet ref).header.timestamp = p.header.timestamp ∧
    (packets.packet ref).header.marker = p.header.marker

/-- The slots in `ok` hold the packets of their numbers, which were not stored yet. -/
structure Assembling (given : List DataPacket) (packets : Packets) (h : RtpSlideShowHandler)
    (ok : ℕ → Prop) : Prop where
  slots : ∀ i ref : ℕ, ok i → h.keyframeBuffer[i]? = some (some ref) →
    ref ∉ h.storedKeyframe ∧ Fits given packets (h.firstKeyframeSeqNum + .ofNat i) ref
  idle : h.slideshowIsActive = false → ∀ slot ∈ h.keyframeBuffer, slot = none
  keyframe : ∃ l, h.storedKeyframe.map (given[·]?) = l.map some ∧ IsKeyframe l

variable {given : List DataPacket} {packets : Packets} {h : RtpSlideShowHandler} {ok : ℕ → Prop}
  {r : SlideShowReading} {ref : ℕ}

theorem Assembling.stored_lt (ha : Assembling given packets h ok) {ref : ℕ}
    (hr : ref ∈ h.storedKeyframe) : ref < given.length := by
  obtain ⟨l, hl, -⟩ := ha.keyframe
  have hm : given[ref]? ∈ l.map some := hl ▸ List.mem_map_of_mem hr
  obtain ⟨p, -, hp⟩ := List.mem_map.mp hm
  exact (List.getElem?_eq_some_iff.mp hp.symm).1

theorem Assembling.assembled (ha : Assembling given packets h fun _ => True) :
    Assembled given h where
  slots i ref hs := by
    obtain ⟨-, p, hp, hn, -⟩ := ha.slots i ref trivial hs
    exact ⟨p, hp, hn⟩
  keyframe := ha.keyframe

theorem Assembling.start (now : ℤ) (packets : Packets) :
    Assembling [] packets { lastKeyframeSentTime := now } fun _ => True where
  slots i ref _ hs := by
    have := List.eq_of_mem_replicate (List.mem_of_getElem? hs)
    simp at this
  idle _ _ hs := List.eq_of_mem_replicate hs
  keyframe := ⟨[], rfl, by simp [Consecutive], by simp, by simp⟩

/-- A handler that starts a keyframe anew. -/
theorem Assembling.reset (ha : Assembling given packets h ok) {h' : RtpSlideShowHandler}
    (hb : h'.keyframeBuffer = List.replicate kMaxKeyframeSize none)
    (hs : h'.storedKeyframe = h.storedKeyframe) (ok' : ℕ → Prop) :
    Assembling given packets h' ok' where
  slots i ref _ hs := by
    rw [hb] at hs
    have := List.eq_of_mem_replicate (List.mem_of_getElem? hs)
    simp at this
  idle _ _ hs := List.eq_of_mem_replicate (hb ▸ hs)
  keyframe := hs ▸ ha.keyframe

/-- A packet of a keyframe starts a new one, or is of the current one; only the slot it will take
may not fit the first number. -/
theorem Assembling.checkKeyframe (ha : Assembling given packets h fun _ => True)
    (codec : Option String) {p : DataPacket}
    (hp : codec = some "VP9" → p.isKeyframe = true →
      p.header.timestamp = h.currentKeyframeTimestamp →
      sequenceNumberLessThan p.header.seqNumber h.firstKeyframeSeqNum = true →
      ∀ slot ∈ h.keyframeBuffer.tail, slot = none) :
    Assembling given packets (h.checkKeyframe codec p).1 fun i =>
      (h.checkKeyframe codec p).2 = true →
        i ≠ (p.header.seqNumber - (h.checkKeyframe codec p).1.firstKeyframeSeqNum).toNat := by
  have hsame (ok : ℕ → Prop) : Assembling given packets h ok :=
    ⟨fun i ref _ => ha.slots i ref trivial, ha.idle, ha.keyframe⟩
  unfold RtpSlideShowHandler.checkKeyframe
  split_ifs with h8 h9
  · unfold isVP8Keyframe
    dsimp only
    split_ifs
    · exact ha.reset (by rfl) (by rfl) _
    · exact hsame _
  · unfold isVP9Keyframe
    dsimp only
    split_ifs with hk hl ht ht
    · exact ha.reset (by rfl) (by rfl) _
    · -- the first number is lowered
      rw [not_not] at ht
      refine ⟨fun i ref hi hs => ?_, ha.idle, ha.keyframe⟩
      have hpos : i ≠ 0 := by simpa using hi rfl
      obtain ⟨j, rfl⟩ := Nat.exists_eq_succ_of_ne_zero hpos
      have hm : some ref ∈ h.keyframeBuffer.tail := by
        rw [← List.drop_one]
        exact List.mem_of_getElem? (i := j) (by rw [List.getElem?_drop, Nat.add_comm]; exact hs)
      exact absurd (hp h9 hk ht hl _ hm) (by simp)
    · exact ha.reset (by rfl) (by rfl) _
    · exact hsame _
    · exact hsame _
  · exact hsame _

/-- The packet is put where it belongs. -/
theorem Assembling.storeKeyframePacket {p : DataPacket}
    (ha : Assembling given packets h fun i =>
      i ≠ (p.header.seqNumber - h.firstKeyframeSeqNum).toNat)
    (hactive : h.slideshowIsActive = true) (hf : ref ∉ h.storedKeyframe)
    (hfits : Fits given packets p.header.seqNumber ref) :
    Assembling given packets (h.storeKeyframePacket p.header.seqNumber ref) fun _ => True where
  slots i ref' _ hs := by
    change (h.keyframeBuffer.set _ _)[i]? = _ at hs
    by_cases hi : i = (p.header.seqNumber - h.firstKeyframeSeqNum).toNat
    · have hr : ref = ref' := by
        rw [List.getElem?_set, if_pos hi.symm] at hs
        split_ifs at hs
        exact Option.some.inj (Option.some.inj hs)
      subst hr
      refine ⟨hf, ?_⟩
      show Fits given packets (h.firstKeyframeSeqNum + .ofNat i) ref
      have hn : h.firstKeyframeSeqNum + (p.header.seqNumber - h.firstKeyframeSeqNum) =
          p.header.seqNumber := by grind
      rw [hi, UInt16.ofNat_toNat, hn]
      exact hfits
    · rw [List.getElem?_set_ne (Ne.symm hi)] at hs
      exact ha.slots i ref' hi hs
  idle hi := absurd (show h.slideshowIsActive = false from hi) (by simp [hactive])
  keyframe := ha.keyframe

/-- The slots up to the marker are a keyframe, if they hold the packets of their numbers; `c` is
the number before. -/
theorem collectKeyframe_isKeyframe (given : List DataPacket) {timestamp : UInt32} {buffer : List (Option ℕ)} {c : UInt16}
    (hb : ∀ i ref : ℕ, buffer[i]? = some (some ref) →
      Fits given packets (c + 1 + .ofNat i) ref)
    (hc : (collectKeyframe packets timestamp buffer).2 = true) :
    ∃ l : List DataPacket, (collectKeyframe packets timestamp buffer).1.map (given[·]?) = l.map some ∧
      ChainFrom (some c) (l.map (·.header.seqNumber)) ∧
      (∀ p ∈ l, p.header.timestamp = timestamp) ∧ ∃ p ∈ l.getLast?, p.header.marker = true := by
  induction buffer generalizing c with
  | nil => simp [collectKeyframe] at hc
  | cons slot buffer ih =>
    cases slot with
    | none => simp [collectKeyframe] at hc
    | some ref =>
      obtain ⟨p, hp, hn, ht, hm⟩ := hb 0 ref rfl
      rw [collectKeyframe] at hc ⊢
      split_ifs at hc ⊢ with h1 h2
      · rw [not_not] at h1
        refine ⟨[p], by simp [hp], by simpa using hn, by simp [← ht, h1], p, by simp, ?_⟩
        rw [← hm, h2]
      · rw [not_not] at h1
        obtain ⟨l, hl, hn', ht', q, hq, hm'⟩ := ih (c := c + 1) (fun i ref hs => by
          have := hb (i + 1) ref hs
          rwa [ofNat_add_one, UInt16.add_comm (.ofNat i), ← UInt16.add_assoc] at this) hc
        refine ⟨p :: l, by simp [hp, hl], ?_, ?_, q, ?_, hm'⟩
        · have : p.header.seqNumber = c + 1 := by simpa using hn
          rw [List.map_cons, this]
          exact ⟨by simp, hn'⟩
        · simp only [List.forall_mem_cons]
          exact ⟨ht.symm.trans h1, ht'⟩
        · rw [List.getLast?_cons, hq]
          simp


theorem Assembling.consolidateKeyframe (ha : Assembling given packets h fun _ => True) :
    Assembling given packets (h.consolidateKeyframe packets) fun _ => True := by
  unfold RtpSlideShowHandler.consolidateKeyframe
  dsimp only
  split_ifs with h1 h2
  · exact ha.reset (by rfl) (by rfl) _
  · obtain ⟨l, hl, hn, ht, q, hq, hm⟩ := collectKeyframe_isKeyframe given
      (c := h.firstKeyframeSeqNum - 1) (fun i ref hs => by
        rw [List.getElem?_take] at hs
        split_ifs at hs
        have hn : h.firstKeyframeSeqNum - 1 + 1 = h.firstKeyframeSeqNum := by grind
        rw [hn]
        exact (ha.slots i ref trivial hs).2) h2
    refine ⟨fun i ref _ hs => ?_, fun _ slot hs => List.eq_of_mem_replicate hs, l, hl, ?_, ?_, ?_⟩
    · have := List.eq_of_mem_replicate (List.mem_of_getElem? hs)
      simp at this
    · exact (List.isChain_cons.mp (chainFrom_some_iff.mp hn)).2
    · intro p hp p' hp'
      rw [ht p hp, ht p' hp']
    · intro p hp
      rw [Option.mem_unique hp hq, hm]
  · exact ⟨ha.slots, ha.idle, ha.keyframe⟩

/-- The stage before the stored keyframe may go out. -/
theorem Assembling.prepared (ha : Assembling given packets h fun _ => True) (r : SlideShowReading)
    (hp : r.codec = some "VP9" → (packets.packet ref).isKeyframe = true →
      (packets.packet ref).header.timestamp = h.currentKeyframeTimestamp →
      sequenceNumberLessThan (packets.packet ref).header.seqNumber h.firstKeyframeSeqNum = true →
      ∀ slot ∈ h.keyframeBuffer.tail, slot = none)
    (hf : ref ∉ h.storedKeyframe)
    (hfits : Fits given packets (packets.packet ref).header.seqNumber ref) :
    Assembling given packets (h.prepared packets r ref) fun _ => True := by
  have hc : Assembling given packets (h.checked packets r ref).1 fun i =>
      (h.checked packets r ref).2 = true → i ≠ ((packets.packet ref).header.seqNumber -
        (h.checked packets r ref).1.firstKeyframeSeqNum).toNat :=
    Assembling.checkKeyframe (h := { h with
      lastTimestampReceived := (packets.packet ref).header.timestamp })
      ⟨ha.slots, ha.idle, ha.keyframe⟩ r.codec hp
  have hs := checked_storedKeyframe h packets r ref
  unfold RtpSlideShowHandler.prepared
  generalize h.checked packets r ref = checked at hc hs
  obtain ⟨h', isKeyframe⟩ := checked
  dsimp only at hc hs ⊢
  split_ifs with hactive
  · have hstore : Assembling given packets (if isKeyframe = true then
        h'.storeKeyframePacket (packets.packet ref).header.seqNumber ref else h') fun _ => True := by
      cases isKeyframe with
      | true => exact Assembling.storeKeyframePacket ⟨fun i ref hi => hc.slots i ref fun _ => hi,
          hc.idle, hc.keyframe⟩ hactive (hs ▸ hf) hfits
      | false => exact ⟨fun i ref _ => hc.slots i ref (by simp), hc.idle, hc.keyframe⟩
    unfold RtpSlideShowHandler.stored
    dsimp only
    generalize (if isKeyframe = true then
      h'.storeKeyframePacket (packets.packet ref).header.seqNumber ref else h') = h'' at hstore
    split_ifs
    · exact hstore.consolidateKeyframe
    · exact hstore
  · -- nothing is kept without slideshow mode
    rw [Bool.not_eq_true] at hactive
    refine ⟨fun i ref _ hs => ?_, hc.idle, hc.keyframe⟩
    have := hc.idle hactive _ (List.mem_of_getElem? hs)
    simp at this


/-! ### The packets kept -/

/-- The timestamps and markers of the packets that are not in `refs` are as before. -/
def Untouched (refs : List ℕ) (ps ps' : Packets) : Prop :=
  ∀ ref ∉ refs, (ps'.packet ref).header.timestamp = (ps.packet ref).header.timestamp ∧
    (ps'.packet ref).header.marker = (ps.packet ref).header.marker

variable {packets' : Packets} {s : Show}

/-- Packets that go out again may change, and are not in the buffer. -/
theorem Assembling.untouched (ha : Assembling given packets h ok)
    (hu : Untouched h.storedKeyframe packets packets') : Assembling given packets' h ok where
  slots i ref hi hs := by
    obtain ⟨hf, p, hp, hn, ht, hm⟩ := ha.slots i ref hi hs
    obtain ⟨ht', hm'⟩ := hu ref hf
    exact ⟨hf, p, hp, hn, ht'.trans ht, hm'.trans hm⟩
  idle := ha.idle
  keyframe := ha.keyframe

theorem untouched_setSeqNumber (refs : List ℕ) (packets : Packets) (ref : ℕ) (n : UInt16) :
    Untouched refs packets (packets.modify ref (·.setSeqNumber n)) := by
  intro ref' _
  show (Function.update packets.packet ref _ ref').header.timestamp = _ ∧
    (Function.update packets.packet ref _ ref').header.marker = _
  by_cases h : ref' = ref
  · subst h
    simp [DataPacket.setSeqNumber]
  · simp [Function.update_of_ne h]

theorem untouched_resend (s : Show) (ref : ℕ) :
    Untouched [ref] s.packets (resend record s ref).packets := by
  intro ref' hr
  have hne : ref' ≠ ref := by simpa using hr
  show (Function.update (Function.update s.packets.packet ref _) ref _ ref').header.timestamp = _ ∧
    (Function.update (Function.update s.packets.packet ref _) ref _ ref').header.marker = _
  simp [Function.update_of_ne hne]

theorem untouched_resend_all (s : Show) (refs : List ℕ) :
    Untouched refs s.packets (refs.foldl (resend record) s).packets := by
  induction refs generalizing s with
  | nil => exact fun _ _ => ⟨rfl, rfl⟩
  | cons ref refs ih =>
    intro ref' hr
    rw [List.mem_cons, not_or] at hr
    obtain ⟨ht, hm⟩ := untouched_resend s ref ref' (by simpa using hr.1)
    obtain ⟨ht', hm'⟩ := ih (resend record s ref) ref' hr.2
    exact ⟨ht'.trans ht, hm'.trans hm⟩

/-- The number of a packet matters to the buffer no more. -/
theorem Assembling.number (ha : Assembling given s.packets s.handler fun _ => True)
    (r : SlideShowReading) (ref : ℕ) (x : UInt16) (skip : Bool) :
    Assembling given (number record s r ref x skip).packets (number record s r ref x skip).handler
      fun _ => True := by
  unfold RtpSlideShowHandler.number
  dsimp only
  split_ifs
  · have hsame : Assembling given s.packets { s.handler with
        translator := (s.handler.translator.get x skip).1, lastKeyframeSentTime := r.now }
        fun _ => True := ⟨ha.slots, ha.idle, ha.keyframe⟩
    exact hsame.untouched (untouched_setSeqNumber _ s.packets ref _)
  · exact ⟨ha.slots, ha.idle, ha.keyframe⟩

theorem number_count (s : Show) (r : SlideShowReading) (ref : ℕ) (x : UInt16) (skip : Bool) :
    (number record s r ref x skip).packets.count = s.packets.count := by
  unfold number
  dsimp only
  split_ifs <;> rfl

theorem ready_count (s : Show) (r : SlideShowReading) (ref : ℕ) (highest : UInt16)
    (initialized : Bool) : (ready s r ref highest initialized).packets.count = s.packets.count := by
  have hfold (refs : List ℕ) (s : Show) :
      (refs.foldl (resend record) s).packets.count = s.packets.count := by
    induction refs generalizing s with
    | nil => rfl
    | cons ref refs ih => exact ih (resend record s ref)
  exact hfold (s.handler.resent s.packets r ref) (s.setHandler (s.handler.prepared s.packets r ref))

theorem Assembling.ready (ha : Assembling given s.packets (s.handler.prepared s.packets r ref)
    fun _ => True) (highest : UInt16) (initialized : Bool) :
    Assembling given (ready s r ref highest initialized).packets
      (ready s r ref highest initialized).handler fun _ => True := by
  have hsame : Assembling given s.packets (RtpSlideShowHandler.ready s r ref highest
      initialized).handler fun _ => True := by
    rw [ready_handler]
    exact ⟨ha.slots, ha.idle, ha.keyframe⟩
  refine hsame.untouched ?_
  · rw [ready_handler]
    intro ref' hr
    refine untouched_resend_all (s.setHandler (s.handler.prepared s.packets r ref))
      (s.handler.resent s.packets r ref) ref' fun hm => hr ?_
    unfold resent at hm
    split_ifs at hm
    · exact hm
    · simp at hm

/-! ### Runs -/

/-- The packets given are those allocated, and the keyframe is put together from them. -/
structure Collected (given : List DataPacket) (s : Show) : Prop where
  count : s.packets.count = given.length
  assembling : Assembling given s.packets s.handler fun _ => True

theorem collected_start (now : ℤ) : Collected [] (start now) where
  count := rfl
  assembling := Assembling.start now _

theorem Assembling.alloc (ha : Assembling given packets h ok) (hc : packets.count = given.length)
    (p : DataPacket) : Assembling (given ++ [p]) (packets.alloc p).1 h ok where
  slots i ref hi hs := by
    obtain ⟨hf, q, hq, hn, ht, hm⟩ := ha.slots i ref hi hs
    have hlt : ref < given.length := (List.getElem?_eq_some_iff.mp hq).1
    have hold : (packets.alloc p).1.packet ref = packets.packet ref :=
      Function.update_of_ne (by omega) ..
    refine ⟨hf, q, ?_, hn, ?_, ?_⟩
    · rw [List.getElem?_append_left hlt, hq]
    · rw [hold, ht]
    · rw [hold, hm]
  idle := ha.idle
  keyframe := by
    obtain ⟨l, hl, hk⟩ := ha.keyframe
    refine ⟨l, ?_, hk⟩
    rw [← hl]
    exact List.map_congr_left fun ref hr => List.getElem?_append_left (ha.stored_lt hr)

theorem Collected.packet (hc : Collected given s) {p : DataPacket} {r : SlideShowReading}
    (ha : Aligned s (.packet p r)) :
    Collected (given ++ [p]) (step s (.packet p r)).1 := by
  set s₁ : Show := { s with packets := (s.packets.alloc p).1 } with hs₁
  set ref := (s.packets.alloc p).2 with href
  have hpacket : s₁.packets.packet ref = p := Packets.alloc_packet ..
  have hcount : s₁.packets.count = (given ++ [p]).length := by
    simp [hs₁, Packets.alloc, hc.count]
  have halloc := hc.assembling.alloc hc.count p
  have hstep : (step s (.packet p r)).1 = write record s₁ r ref := rfl
  rw [hstep]
  cases hv : p.isVideo with
  | false =>
    have hwrite : write record s₁ r ref = s₁.fireWrite record .other ref := by
      simp [write, hpacket, hv]
    rw [hwrite]
    exact ⟨hcount, halloc⟩
  | true =>
    have hfits : Fits (given ++ [p]) s₁.packets (s₁.packets.packet ref).header.seqNumber ref := by
      refine ⟨p, ?_, ?_, ?_, ?_⟩
      · simp [href, Packets.alloc, hc.count]
      · rw [hpacket]
      · rw [hpacket]
      · rw [hpacket]
    have hfresh : ref ∉ s.handler.storedKeyframe := fun hm => by
      have := hc.assembling.stored_lt hm
      simp [href, Packets.alloc, hc.count] at this
    have hprep : Assembling (given ++ [p]) s₁.packets (s₁.handler.prepared s₁.packets r ref)
        fun _ => True := by
      refine Assembling.prepared halloc r ?_ hfresh hfits
      rw [hpacket]
      exact ha hv
    obtain ⟨highest, initialized, hw⟩ := write_eq s₁ r (by rw [hpacket, hv])
    rw [hw]
    refine ⟨?_, (hprep.ready highest initialized).number r ref _ _⟩
    rw [number_count, ready_count, hcount]

theorem Collected.setSlideShowMode (hc : Collected given s) (active : Bool) (now : ℤ) :
    Collected given (s.setHandler (s.handler.setSlideShowMode active now)) := by
  refine ⟨hc.count, ?_⟩
  show Assembling given s.packets (s.handler.setSlideShowMode active now) fun _ => True
  unfold RtpSlideShowHandler.setSlideShowMode
  split_ifs
  · exact hc.assembling
  · exact hc.assembling.reset (by rfl) (by rfl) _

theorem Collected.run (hc : Collected given s) {events : List Event}
    (ha : Runs.Steps step Aligned s events) :
    Collected (given ++ RtpSlideShowHandler.given events) (Runs.final step s events) := by
  induction events generalizing given s with
  | nil =>
    rw [RtpSlideShowHandler.given, List.filterMap_nil, List.append_nil]
    exact hc
  | cons e events ih =>
    cases e with
    | packet p r =>
      have := ih (hc.packet ha.1) ha.2
      rwa [List.append_assoc] at this
    | setSlideShowMode active now => exact ih (hc.setSlideShowMode active now) ha.2

/-- As long as no packet lowers the first number while packets behind it are kept, every slot
holds the packet of its number and the stored packets are those of a keyframe. -/
theorem assembled_run (now : ℤ) (events : List Event)
    (ha : Runs.Steps step Aligned (start now) events) :
    Assembled (RtpSlideShowHandler.given events) (Runs.final step (start now) events).handler := by
  have hc := (collected_start now).run ha
  rw [List.nil_append] at hc
  exact hc.assembling.assembled

/-- A packet of a VP9 keyframe. -/
def vp9 (seqNumber : UInt16) (marker : Bool) : Event :=
  .packet { header := { seqNumber := seqNumber, timestamp := 1, marker := marker }, isKeyframe := true }
    { codec := some "VP9" }

/-- Two packets that come in the wrong order, with the last packet in front and behind. -/
theorem assembled_run_reordered : Assembled
    (RtpSlideShowHandler.given [.setSlideShowMode true 0, vp9 0 false, vp9 65535 false,
      vp9 2 true, vp9 0 false, vp9 1 false])
    (Runs.final step (start 0) [.setSlideShowMode true 0, vp9 0 false, vp9 65535 false,
      vp9 2 true, vp9 0 false, vp9 1 false]).handler :=
  assembled_run 0 _ (by decide)

/-- The last packet stays in the third slot when the first number is lowered by two, and so a
keyframe without the packet before it is stored. -/
theorem not_assembled_run : ¬∀ (now : ℤ) (events : List Event),
    Assembled (RtpSlideShowHandler.given events)
      (Runs.final step (start now) events).handler := by
  intro h
  obtain ⟨l, hl, hk⟩ := (h 0 [.setSlideShowMode true 0, vp9 12 false, vp9 14 true, vp9 10 false,
    vp9 11 false]).keyframe
  have hnumbers : (l.map (·.header.seqNumber)).map some =
      [(10 : UInt16), 11, 14].map some := by
    have := congrArg (List.map (Option.map (·.header.seqNumber))) hl
    rw [List.map_map, List.map_map] at this
    rw [List.map_map]
    exact this.symm.trans (by decide)
  have hc := hk.numbers
  rw [List.map_injective_iff.mpr (Option.some_injective _) hnumbers] at hc
  exact absurd hc (by simp [Consecutive])


end KkLicode.Rtp.RtpSlideShowHandler
