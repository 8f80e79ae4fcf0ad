import KkLicode.Rtp.QualityFilterStream

/-! Which spatial layer `QualityFilterHandler` forwards. A layer selected other than
the target is remembered until a keyframe of it comes or the timeout is over. Each
packet sets the clock of the timeout anew, and the layer is still remembered when
the selection has returned to the target. -/

namespace KkLicode.Rtp.QualityFilterHandler

open Base

/-- The packet is a keyframe of the spatial layer, within the temporal layer selected. -/
def keyframeOf (a : Arrival) (layer : ℤ) : Bool :=
  a.packet.belongsToSpatialLayer layer &&
    a.packet.belongsToTemporalLayer a.reading.temporalLayer && a.packet.isKeyframe

/-- The layer that has been selected at every packet up to this one, other than the target, with
the clock at the first of these packets. `waiting` is that up to the packet before. -/
def awaited (h : QualityFilterHandler) (waiting : Option (ℤ × ℤ)) (a : Arrival) : Option (ℤ × ℤ) :=
  if !h.handles a then waiting
  else if a.reading.spatialLayer = h.targetSpatialLayer then none
  else if waiting.map Prod.fst = some a.reading.spatialLayer then waiting
  else some (a.reading.spatialLayer, a.reading.changeTime)

/-- The handler together with the layer waited for. -/
def await (s : QualityFilterHandler × Option (ℤ × ℤ)) (a : Arrival) :
    (QualityFilterHandler × Option (ℤ × ℤ)) × List DataPacket :=
  (((s.1.step a).1, s.1.awaited s.2 a), (s.1.step a).2)

/-- The packet selects a layer that has been waited for longer than the timeout. -/
def overdue (s : QualityFilterHandler × Option (ℤ × ℤ)) (a : Arrival) (layer : ℤ) : Prop :=
  s.1.handles a = true ∧ ∃ since, s.1.awaited s.2 a = some (layer, since) ∧
    a.reading.now - since > kSwitchTimeout

/-- The target changes only to the layer selected at the packet, and it is that layer after a
packet for which it is overdue. -/
structure FollowsSelection (s : QualityFilterHandler × Option (ℤ × ℤ)) (a : Arrival) : Prop where
  selected : (s.1.step a).1.targetSpatialLayer ≠ s.1.targetSpatialLayer →
    (s.1.step a).1.targetSpatialLayer = a.reading.spatialLayer
  timely : ∀ layer, overdue s a layer → (s.1.step a).1.targetSpatialLayer = layer

/-- A packet for which the layer is overdue is a keyframe of it, and one at which the target itself
is selected neither is a keyframe of another layer remembered nor comes after the timeout of it. -/
structure Prompt (s : QualityFilterHandler × Option (ℤ × ℤ)) (a : Arrival) : Prop where
  /-- Between two readings of the clock during one packet the timeout can be over, too. -/
  overdue : ∀ layer, overdue s a layer → layer ≠ -1 ∧
    (keyframeOf a layer = true ∨ a.reading.now - a.reading.changeTime > kSwitchTimeout)
  forgotten : s.1.handles a = true → a.reading.spatialLayer = s.1.targetSpatialLayer →
    s.1.futureSpatialLayer ≠ -1 → s.1.futureSpatialLayer ≠ s.1.targetSpatialLayer →
    keyframeOf a s.1.futureSpatialLayer = false ∧
      a.reading.now - s.1.timeChangeStarted ≤ kSwitchTimeout

/-! ### The target after a packet -/

variable {h : QualityFilterHandler} {a : Arrival}

theorem targetSpatialLayer_writeTemporal (h : QualityFilterHandler) (p : DataPacket) :
    (h.writeTemporal p).1.targetSpatialLayer = h.targetSpatialLayer := by
  unfold writeTemporal
  split_ifs
  · rfl
  · simp only [ne_eq]
    split_ifs
    · rfl
    · rfl

theorem targetSpatialLayer_followSSRC (h : QualityFilterHandler) (p : DataPacket) :
    (h.followSSRC p).targetSpatialLayer = h.targetSpatialLayer := by
  by_cases hs : h.lastSSRCReceived = p.header.ssrc
  · simp [followSSRC, checkSSRCChange, hs]
  · simp [followSSRC, checkSSRCChange, hs]

theorem targetSpatialLayer_dropSpatial (h : QualityFilterHandler) (p : DataPacket) :
    (h.dropSpatial p).targetSpatialLayer = h.targetSpatialLayer := by
  unfold dropSpatial
  split_ifs
  · rfl
  · rfl

/-- Only the selection changes the target. -/
theorem targetSpatialLayer_step_handled (hh : h.handles a = true) :
    (h.step a).1.targetSpatialLayer = (h.selected a).targetSpatialLayer := by
  obtain ⟨pli, -, hw⟩ := h.write_handled hh
  have hs : (h.step a).1 = (h.write a.reading a.packet).1 := rfl
  rw [hs, hw]
  cases hb : a.packet.belongsToSpatialLayer (h.selected a).targetSpatialLayer with
  | true => exact (targetSpatialLayer_writeTemporal _ _).trans (targetSpatialLayer_followSSRC _ _)
  | false => exact targetSpatialLayer_dropSpatial _ _

theorem targetSpatialLayer_step_unhandled (hh : h.handles a = false) :
    (h.step a).1.targetSpatialLayer = h.targetSpatialLayer := by
  obtain ⟨b, c, hd, -⟩ := h.detectVideoScalability_eq a.packet
  rw [QualityFilterHandler.step, write_unhandled h hh, hd]

/-- The layer pending at the packet is switched to at its keyframe or after the timeout. -/
theorem targetSpatialLayer_change (h : QualityFilterHandler) (r : Reading) (p : DataPacket) :
    (h.changeSpatialLayerOnKeyframeReceived r p).1.targetSpatialLayer =
      if h.futureSpatialLayer ≠ -1 ∧ ((p.belongsToSpatialLayer h.futureSpatialLayer &&
          p.belongsToTemporalLayer h.targetTemporalLayer && p.isKeyframe) = true ∨
        r.now - h.timeChangeStarted > kSwitchTimeout)
      then h.futureSpatialLayer else h.targetSpatialLayer := by
  unfold changeSpatialLayerOnKeyframeReceived
  split_ifs with h1 h2 h3 h4 h5 h6
  · exact absurd h1 h2.1
  · rfl
  · rfl
  · exact absurd ⟨h1, .inl h3⟩ h4
  · rfl
  · exact absurd ⟨h1, .inr h5⟩ h6
  · rename_i h7
    exact absurd h7.2 (by simp [h3, h5])
  · rfl

@[simp] theorem noteSSRC_targetSpatialLayer (h : QualityFilterHandler) (ssrc : UInt32) :
    (h.noteSSRC ssrc).targetSpatialLayer = h.targetSpatialLayer := by
  unfold noteSSRC
  split_ifs <;> rfl

@[simp] theorem noteSSRC_futureSpatialLayer (h : QualityFilterHandler) (ssrc : UInt32) :
    (h.noteSSRC ssrc).futureSpatialLayer = h.futureSpatialLayer := by
  unfold noteSSRC
  split_ifs <;> rfl

@[simp] theorem noteSSRC_targetTemporalLayer (h : QualityFilterHandler) (ssrc : UInt32) :
    (h.noteSSRC ssrc).targetTemporalLayer = h.targetTemporalLayer := by
  unfold noteSSRC
  split_ifs <;> rfl

@[simp] theorem noteSSRC_timeChangeStarted (h : QualityFilterHandler) (ssrc : UInt32) :
    (h.noteSSRC ssrc).timeChangeStarted = h.timeChangeStarted := by
  unfold noteSSRC
  split_ifs <;> rfl

/-- The layer selected replaces the pending one, and its timeout starts, unless it is the target. -/
theorem targetSpatialLayer_selected (h : QualityFilterHandler) (a : Arrival) :
    (h.selected a).targetSpatialLayer =
      if a.reading.spatialLayer = h.targetSpatialLayer then
        if h.futureSpatialLayer ≠ -1 ∧ (keyframeOf a h.futureSpatialLayer = true ∨
          a.reading.now - h.timeChangeStarted > kSwitchTimeout)
        then h.futureSpatialLayer else h.targetSpatialLayer
      else if a.reading.spatialLayer ≠ -1 ∧ (keyframeOf a a.reading.spatialLayer = true ∨
          a.reading.now - a.reading.changeTime > kSwitchTimeout)
        then a.reading.spatialLayer else h.targetSpatialLayer := by
  obtain ⟨b, c, hd, -⟩ := h.detectVideoScalability_eq a.packet
  simp only [selected, selectLayers, targetSpatialLayer_change, hd, checkLayers]
  by_cases hs : a.reading.spatialLayer = h.targetSpatialLayer
  · simp [hs, keyframeOf]
  · simp [hs, keyframeOf]

/-! ### One packet -/

theorem awaited_handled (hh : h.handles a = true) (waiting : Option (ℤ × ℤ)) :
    h.awaited waiting a =
      if a.reading.spatialLayer = h.targetSpatialLayer then none
      else if waiting.map Prod.fst = some a.reading.spatialLayer then waiting
      else some (a.reading.spatialLayer, a.reading.changeTime) := by
  simp [awaited, hh]

/-- What is waited for is the layer selected. -/
theorem awaited_fst {waiting : Option (ℤ × ℤ)} {layer since : ℤ} (hh : h.handles a = true)
    (hw : h.awaited waiting a = some (layer, since)) :
    layer = a.reading.spatialLayer ∧ a.reading.spatialLayer ≠ h.targetSpatialLayer := by
  rw [awaited_handled hh] at hw
  split_ifs at hw with hs hm
  · rw [hw] at hm
    simp only [Option.map_some, Option.some.injEq] at hm
    exact ⟨hm, hs⟩
  · simp only [Option.some.injEq, Prod.mk.injEq] at hw
    exact ⟨hw.1.symm, hs⟩

/-- Where another layer than the target is selected, the filter follows the selection if and only if
the packet is a keyframe of the layer whenever it is overdue. -/
theorem followsSelection_iff_prompt (s : QualityFilterHandler × Option (ℤ × ℤ)) (a : Arrival) :
    FollowsSelection s a ↔ Prompt s a := by
  obtain ⟨h, waiting⟩ := s
  cases hh : h.handles a with
  | false =>
    have ht := targetSpatialLayer_step_unhandled hh
    refine ⟨fun _ => ⟨fun layer ho => ?_, fun hc => ?_⟩, fun _ => ⟨fun hc => ?_, fun layer ho => ?_⟩⟩
    · exact absurd ho.1 (by simp [hh])
    · exact absurd hc (by simp [hh])
    · exact absurd ht hc
    · exact absurd ho.1 (by simp [hh])
  | true =>
    have ht := targetSpatialLayer_step_handled hh
    rw [targetSpatialLayer_selected] at ht
    by_cases hs : a.reading.spatialLayer = h.targetSpatialLayer
    · -- nothing is overdue
      have hno : ∀ layer, ¬overdue (h, waiting) a layer :=
        fun layer ⟨_, _, hw, _⟩ => (awaited_fst hh hw).2 hs
      rw [if_pos hs] at ht
      constructor
      · rintro ⟨hsel, -⟩
        refine ⟨fun layer ho => absurd ho (hno layer), fun _ _ hf hne => ?_⟩
        simp only [ht, hs] at hsel
        split_ifs at hsel with hsw
        · exact absurd (hsel hne) hne
        · simp only [ne_eq, hf, not_false_eq_true, true_and, not_or] at hsw
          exact ⟨by simpa using hsw.1, not_lt.mp hsw.2⟩
      · rintro ⟨-, hforgotten⟩
        refine ⟨fun hne => absurd ?_ hne, fun layer ho => absurd ho (hno layer)⟩
        simp only at ht ⊢
        rw [ht]
        split_ifs with hsw
        · by_contra hne
          obtain ⟨hk, ht'⟩ := hforgotten hh hs hsw.1 hne
          rcases hsw.2 with h1 | h1
          · simp [h1] at hk
          · simp only at ht'
            omega
        · rfl
    · rw [if_neg hs] at ht
      constructor
      · rintro ⟨-, htimely⟩
        refine ⟨fun layer ho => ?_, fun _ hc => absurd hc hs⟩
        have hl := htimely layer ho
        obtain ⟨-, since, hw, -⟩ := ho
        obtain ⟨rfl, -⟩ := awaited_fst hh hw
        simp only [ht] at hl
        split_ifs at hl with hsw
        · exact hsw
        · exact absurd hl.symm hs
      · rintro ⟨hover, -⟩
        refine ⟨fun hne => ?_, fun layer ho => ?_⟩
        · simp only [ht] at hne ⊢
          split_ifs at hne ⊢ with hsw
          · rfl
          · exact absurd rfl hne
        · have hl := hover layer ho
          obtain ⟨-, since, hw, -⟩ := ho
          obtain ⟨rfl, -⟩ := awaited_fst hh hw
          simp only [ht, if_pos hl]

/-! ### Runs -/

/-- The target follows the selection in exactly the runs in which an overdue layer comes with its
keyframe, and no layer that was once selected comes with its keyframe or its timeout while the
target is selected. -/
theorem follows_iff_prompt (h : QualityFilterHandler) (arrivals : List Arrival) :
    Runs.Steps await FollowsSelection (h, none) arrivals ↔ Runs.Steps await Prompt (h, none) arrivals :=
  ⟨Runs.Steps.imp fun s a => (followsSelection_iff_prompt s a).mp,
    Runs.Steps.imp fun s a => (followsSelection_iff_prompt s a).mpr⟩

/-- The second layer is selected for four seconds, with a packet every two. -/
theorem not_follows : ¬∀ (h : QualityFilterHandler) (arrivals : List Arrival),
    Runs.Steps await FollowsSelection (h, none) arrivals := by
  intro h
  let packet : DataPacket := { compatibleSpatialLayers := [0], compatibleTemporalLayers := [0, 1] }
  have hl := (h (fresh 7 1 0) [⟨packet, { spatialLayer := 1 }⟩,
    ⟨packet, { spatialLayer := 1, changeTime := 2000000000, now := 2000000000 }⟩,
    ⟨packet, { spatialLayer := 1, changeTime := 4000000000, now := 4000000000 }⟩]).2.2.1.timely 1
      ⟨by decide, 0, by decide, by decide⟩
  exact absurd hl (by decide)

end KkLicode.Rtp.QualityFilterHandler
