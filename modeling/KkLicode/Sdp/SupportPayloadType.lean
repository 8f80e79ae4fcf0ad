import KkLicode.Sdp.PayloadTypes

/-! `supportPayloadType`, which looks for an entry of an internal payload type in the
list of external ones. Each external payload type is looked up as if it were an internal
one, and where it is not in the map it is put there with the value 0. -/

namespace KkLicode.Sdp

open Base

/-- The loop over the payload types; a lookup inserts what is not there. -/
def findSupported (payloadType : UInt32) : List RtpMap → StdMap UInt32 UInt32 →
    Bool × StdMap UInt32 UInt32
  | [], inOutPTMap => (false, inOutPTMap)
  | rtp :: rtps, inOutPTMap =>
    let lookedUp := inOutPTMap.insert rtp.payloadType 0
    if (inOutPTMap.find rtp.payloadType).getD 0 = payloadType then (true, lookedUp)
    else findSupported payloadType rtps lookedUp

def SdpInfo.supportPayloadType (info : SdpInfo) (payloadType : UInt32) : Bool × SdpInfo :=
  if (info.inOutPTMap.find payloadType).isSome then
    let (found, inOutPTMap) := findSupported payloadType info.payloadVector info.inOutPTMap
    (found, { info with inOutPTMap := inOutPTMap })
  else (false, info)

/-- The descriptions that a new `SdpInfo` read, and what was agreed on with them. -/
inductive Negotiations (internal : List RtpMap) : SdpInfo → Agreed → Prop where
  | new : Negotiations internal (SdpInfo.new internal) []
  | refused {info info' agreed} (sdp media : Text) :
    Negotiations internal info agreed → info.processSdp sdp media = some (info', false) →
    Negotiations internal info' agreed
  | agreed {info info' agreed} (sdp media : Text) :
    Negotiations internal info agreed → info.processSdp sdp media = some (info', true) →
    Negotiations internal info' (agreeOn internal info'.payloadParsedMap agreed)

/-- An entry that was agreed on has the internal payload type. -/
def Agreed.Supports (agreed : Agreed) (payloadType : UInt32) : Prop :=
  payloadType ∈ agreed.map (·.2)

/-- The call answers from what was agreed on and leaves the maps as they are. -/
structure SdpInfo.AnswersFrom (info : SdpInfo) (agreed : Agreed) (payloadType : UInt32) : Prop where
  answer : (info.supportPayloadType payloadType).1 = true ↔ agreed.Supports payloadType
  inOut : (info.supportPayloadType payloadType).2.inOutPTMap = info.inOutPTMap
  outIn : (info.supportPayloadType payloadType).2.outInPTMap = info.outInPTMap

/-- A payload type of the list leads to `payloadType`, and those in front of it are in the
map, too. -/
def Finds (payloadType : UInt32) (rtps : List RtpMap) (inOutPTMap : StdMap UInt32 UInt32) : Prop :=
  ∃ before rtp behind, rtps = before ++ rtp :: behind ∧
    inOutPTMap.find rtp.payloadType = some payloadType ∧
    ∀ other ∈ before, (inOutPTMap.find other.payloadType).isSome

/-- An external payload type stands as an internal one for `payloadType`, and those in front
of it are internal ones, too. -/
def SdpInfo.Overlaps (info : SdpInfo) (payloadType : UInt32) : Prop :=
  Finds payloadType info.payloadVector info.inOutPTMap

variable {internal : List RtpMap} {info : SdpInfo} {agreed : Agreed} {payloadType : UInt32}

theorem Negotiations.maps (h : Negotiations internal info agreed) :
    info.internalPayloadVector = internal ∧ ∃ looked, MapsHold agreed looked info.toNegotiated := by
  induction h with
  | new => exact ⟨rfl, [], rfl, fun _ => rfl, fun _ => rfl⟩
  | refused sdp media _ hrun ih =>
    obtain ⟨loop, hloop, ⟨-, -, rfl⟩ | ⟨-, hb, -⟩⟩ := processSdp_cases hrun
    · have hstep := readLines_codecs hloop
      rw [hstep.internal, hstep.negotiated]
      exact ih
    · cases hb
  | agreed sdp media _ hrun ih =>
    obtain ⟨loop, hloop, ⟨-, hb, -⟩ | ⟨-, -, negotiated, hn, rfl⟩⟩ := processSdp_cases hrun
    · cases hb
    obtain ⟨hinternal, looked, hmaps⟩ := ih
    have hstep := readLines_codecs hloop
    obtain ⟨_, _, _, _, _, heq⟩ := fill_eq loop.info
    rw [hstep.internal, hinternal, hstep.negotiated] at hn
    rw [heq]
    exact ⟨hstep.internal.trans hinternal, _, hmaps.negotiate hn⟩

/-- An internal payload type is in the map if and only if it was agreed on. -/
theorem Negotiations.isSome_inOut_iff (h : Negotiations internal info agreed) :
    (info.inOutPTMap.find payloadType).isSome ↔ agreed.Supports payloadType := by
  obtain ⟨-, looked, hmaps⟩ := h.maps
  rw [hmaps.inOut, isSome_lastWrite_iff, List.map_map]
  rfl

/-- Whatever is looked up stays. -/
theorem isSome_findSupported {rtps : List RtpMap} {inOutPTMap : StdMap UInt32 UInt32} {pt : UInt32}
    (h : (inOutPTMap.find pt).isSome) :
    ((findSupported payloadType rtps inOutPTMap).2.find pt).isSome := by
  have hinsert (k : UInt32) {m : StdMap UInt32 UInt32} (hm : (m.find pt).isSome) :
      ((m.insert k 0).find pt).isSome := by
    rw [StdMap.find_insert]
    split_ifs
    · rfl
    · exact hm
  induction rtps generalizing inOutPTMap with
  | nil => exact h
  | cons rtp rtps ih =>
    rw [findSupported]
    split_ifs
    · exact hinsert _ h
    · exact ih (hinsert _ h)

theorem finds_cons {rtp : RtpMap} {rtps : List RtpMap} {inOutPTMap : StdMap UInt32 UInt32} :
    Finds payloadType (rtp :: rtps) inOutPTMap ↔
      inOutPTMap.find rtp.payloadType = some payloadType ∨
        (inOutPTMap.find rtp.payloadType).isSome ∧ Finds payloadType rtps inOutPTMap := by
  constructor
  · rintro ⟨before, first, behind, heq, hfirst, hbefore⟩
    rcases List.cons_eq_append_iff.mp heq with ⟨rfl, hcons⟩ | ⟨before', rfl, htail⟩
    · obtain ⟨rfl, -⟩ := List.cons.inj hcons
      exact .inl hfirst
    · obtain ⟨hsome, hbefore⟩ := List.forall_mem_cons.mp hbefore
      exact .inr ⟨hsome, before', first, behind, htail, hfirst, hbefore⟩
  · rintro (hfirst | ⟨hsome, before, first, behind, rfl, hfirst, hbefore⟩)
    · exact ⟨[], rtp, rtps, rfl, hfirst, by simp⟩
    · exact ⟨rtp :: before, first, behind, rfl, hfirst, List.forall_mem_cons.mpr ⟨hsome, hbefore⟩⟩

/-- The loop succeeds without an insertion if and only if it finds the payload type behind
entries that are in the map. -/
theorem findSupported_eq_iff {rtps : List RtpMap} {inOutPTMap : StdMap UInt32 UInt32} :
    findSupported payloadType rtps inOutPTMap = (true, inOutPTMap) ↔
      Finds payloadType rtps inOutPTMap := by
  induction rtps with
  | nil => simp [findSupported, Finds]
  | cons rtp rtps ih =>
    rw [findSupported, finds_cons]
    cases hfind : inOutPTMap.find rtp.payloadType with
    | none =>
      -- the insertion is seen in the result
      have hinserted : ((inOutPTMap.insert rtp.payloadType 0).find rtp.payloadType).isSome := by
        rw [StdMap.find_insert, if_pos rfl]
        rfl
      have hne : ∀ result : Bool × StdMap UInt32 UInt32,
          (result.2.find rtp.payloadType).isSome → result ≠ (true, inOutPTMap) := by
        rintro _ hsome rfl
        rw [hfind] at hsome
        cases hsome
      refine iff_of_false ?_ (by simp)
      split_ifs
      · exact hne _ hinserted
      · exact hne _ (isSome_findSupported hinserted)
    | some pt =>
      have hsome : (inOutPTMap.find rtp.payloadType).isSome := by
        rw [hfind]
        rfl
      rw [StdMap.insert_of_isSome hsome, Option.getD_some, Option.some.injEq, ← ih]
      split_ifs with heq
      · simp [heq]
      · simp [heq]

/-- The call answers from what was agreed on and changes nothing if and only if the payload
type was not agreed on, or it is found under an external payload type behind others that are
in the map of the internal ones. -/
theorem supportPayloadType_answers_iff (h : Negotiations internal info agreed)
    (payloadType : UInt32) : info.AnswersFrom agreed payloadType ↔
      (agreed.Supports payloadType → info.Overlaps payloadType) := by
  rw [← h.isSome_inOut_iff]
  by_cases hsome : (info.inOutPTMap.find payloadType).isSome
  · rw [imp_iff_right hsome, SdpInfo.Overlaps, ← findSupported_eq_iff]
    have hcall : info.supportPayloadType payloadType =
        ((findSupported payloadType info.payloadVector info.inOutPTMap).1,
          { info with
            inOutPTMap := (findSupported payloadType info.payloadVector info.inOutPTMap).2 }) :=
      if_pos hsome
    constructor
    · intro ha
      have hanswer := ha.answer.mpr (h.isSome_inOut_iff.mp hsome)
      have hkept := ha.inOut
      rw [hcall] at hanswer hkept
      exact Prod.ext hanswer hkept
    · intro hfound
      rw [hfound] at hcall
      refine ⟨?_, ?_, ?_⟩ <;> rw [hcall]
      exact iff_of_true rfl (h.isSome_inOut_iff.mp hsome)
  · have hcall : info.supportPayloadType payloadType = (false, info) := if_neg hsome
    refine iff_of_true ⟨?_, ?_, ?_⟩ (absurd · hsome) <;> rw [hcall]
    rw [← h.isSome_inOut_iff]
    exact iff_of_false Bool.false_ne_true hsome

/-- VP8 under a payload type. -/
def vp8As (payloadType : String) : Text :=
  textOf ["m=video", "a=ice-ufrag:user", "a=rtpmap:" ++ payloadType ++ " VP8/90000"]

theorem negotiations_vp8As {payloadType : String} {pt : UInt32}
    (hrun : ((SdpInfo.new vp8WithRtx).processSdp (vp8As payloadType) []).map (fun result =>
      (result.1.payloadVector.map (·.payloadType), result.1.inOutPTMap.pairs,
        agreeOn vp8WithRtx result.1.payloadParsedMap [], result.2)) =
          some ([pt], [(100, pt)], [(pt, 100)], true)) :
    ∃ info, Negotiations vp8WithRtx info [(pt, 100)] ∧
      info.payloadVector.map (·.payloadType) = [pt] ∧ info.inOutPTMap.pairs = [(100, pt)] := by
  obtain ⟨⟨info, b⟩, hrun, heq⟩ := Option.map_eq_some_iff.mp hrun
  simp only [Prod.mk.injEq] at heq
  obtain ⟨hvector, hinOut, hagreed, rfl⟩ := heq
  exact ⟨info, hagreed ▸ .agreed _ _ .new hrun, hvector, hinOut⟩

/-- VP8 has the same payload type on both sides. -/
theorem supportPayloadType_answers_iff_same : ∃ info,
    Negotiations vp8WithRtx info [(100, 100)] ∧
      (info.AnswersFrom [(100, 100)] 100 ↔
        (Agreed.Supports [(100, 100)] 100 → info.Overlaps 100)) ∧ info.Overlaps 100 := by
  obtain ⟨info, h, hvector, hinOut⟩ := @negotiations_vp8As "100" 100
    (by decide +kernel)
  refine ⟨info, h, supportPayloadType_answers_iff h 100, ?_⟩
  obtain ⟨codec, hcodec, hpt⟩ := List.map_eq_singleton_iff.mp hvector
  refine ⟨[], codec, [], hcodec, ?_, by simp⟩
  rw [hpt, StdMap.find, hinOut]
  rfl

/-- VP8 is offered as 96, which is no internal payload type. -/
theorem not_supportPayloadType_answers : ¬∀ (internal : List RtpMap) (info : SdpInfo)
    (agreed : Agreed) (payloadType : UInt32), Negotiations internal info agreed →
      info.AnswersFrom agreed payloadType := by
  intro hall
  obtain ⟨info, h, hvector, hinOut⟩ := @negotiations_vp8As "96" 96
    (by decide)
  have hanswer := (hall vp8WithRtx info _ 100 h).answer.mpr List.mem_cons_self
  obtain ⟨codec, hcodec, hpt⟩ := List.map_eq_singleton_iff.mp hvector
  have hsome : (info.inOutPTMap.find 100).isSome := by
    rw [StdMap.find, hinOut]
    rfl
  have hnone : info.inOutPTMap.find 96 = none := by
    rw [StdMap.find, hinOut]
    rfl
  rw [SdpInfo.supportPayloadType, if_pos hsome, hcodec] at hanswer
  simp [findSupported, hpt, hnone] at hanswer

end KkLicode.Sdp
