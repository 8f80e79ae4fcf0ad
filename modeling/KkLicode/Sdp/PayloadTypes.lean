import KkLicode.Base.LastWrite
import KkLicode.Sdp.Agreement

/-! The maps of the payload types. Whatever is agreed on is written to both maps, so that
they hold the last agreement of each payload type. The second loops also look payload
types up, and one that is not in the map is put there with the value 0: the maps are
consistent if and only if every associated payload type that is looked up is agreed on,
and no agreement takes the internal payload type of an earlier one that still holds. -/

namespace KkLicode.Sdp

open Base Folds CodecWrite

/-- The payload types that are agreed on, external and internal, in order. -/
abbrev Agreed := List (UInt32 × UInt32)

/-- Agree on a retransmission codec if its associated payload type was agreed on as the
internal one. A payload type that was not agreed on stands for the internal one 0. -/
def agreeRtx (agreed : Agreed) (pair : RtpMap × RtpMap) : Agreed :=
  match aptPair pair.1 pair.2 with
  | none => agreed
  | some (parsedApt, internalApt) =>
    if (lastWrite parsedApt agreed).getD 0 = internalApt then
      agreed ++ [(pair.1.payloadType, pair.2.payloadType)]
    else agreed

/-- The retransmission codecs with the name and clock rate of an internal one, each with
all internal codecs. -/
def rtxPairs (internal : List RtpMap) (parsed : StdMap UInt32 RtpMap) : List (RtpMap × RtpMap) :=
  (((internal ×ˢ parsed.pairs).filter fun pair =>
    SameCodec pair.1 pair.2.2 ∧ pair.2.2.encodingName = rtx).map (·.2.2)) ×ˢ internal

/-- What is agreed on with an internal list and a description behind `agreed`. -/
def agreeOn (internal : List RtpMap) (parsed : StdMap UInt32 RtpMap) (agreed : Agreed) : Agreed :=
  (rtxPairs internal parsed).foldl agreeRtx
    (agreed ++ (mediaPairs internal parsed).map fun pair =>
      (pair.2.2.payloadType, pair.1.payloadType))

/-- The associated payload types of the description that are looked up. -/
def lookedUp (internal : List RtpMap) (parsed : StdMap UInt32 RtpMap) : List UInt32 :=
  (rtxPairs internal parsed).flatMap fun pair => ((aptPair pair.1 pair.2).map (·.1)).toList

/-- An agreement that is the last one of its payload type is the last one of the internal
payload type, too. -/
def Agreed.Kept (agreed : Agreed) : Prop :=
  ∀ before pt internalPT behind, agreed = before ++ (pt, internalPT) :: behind →
    pt ∉ behind.map (·.1) → internalPT ∉ behind.map (·.2)

/-- The maps lead from the agreed payload types to internal ones and back, and every
other payload type is left as it is. -/
structure SdpInfo.PayloadTypesConsistent (info : SdpInfo) : Prop where
  keys (pt : UInt32) : (info.outInPTMap.find pt).isSome ↔
    ∃ codec ∈ info.payloadVector, codec.payloadType = pt
  inverse : ∀ codec ∈ info.payloadVector, ∃ internalPT,
    info.outInPTMap.find codec.payloadType = some internalPT ∧
      info.inOutPTMap.find internalPT = some codec.payloadType
  unchanged (pt : UInt32) : (∀ codec ∈ info.payloadVector, codec.payloadType ≠ pt) →
    info.getAudioInternalPT pt = pt ∧ info.getVideoInternalPT pt = pt

/-- The maps hold what was agreed on, and the payload types `looked` that were looked up
before they were agreed on with the value 0. -/
structure MapsHold (agreed : Agreed) (looked : List UInt32) (n : Negotiated) : Prop where
  vector : n.payloadVector.map (·.payloadType) = agreed.map (·.1)
  outIn (pt : UInt32) : n.outInPTMap.find pt =
    (lastWrite pt agreed).or (if pt ∈ looked then some 0 else none)
  inOut (internalPT : UInt32) : n.inOutPTMap.find internalPT =
    lastWrite internalPT (agreed.map Prod.swap)

variable {agreed : Agreed} {looked : List UInt32} {n n' : Negotiated} {codec : RtpMap}
  {internalPT : UInt32}

theorem MapsHold.push (hn : MapsHold agreed looked n) (h : n.push internalPT codec = some n') :
    MapsHold (agreed ++ [(codec.payloadType, internalPT)]) looked n' := by
  obtain ⟨mtype, -, h⟩ := Option.bind_eq_some_iff.mp h
  rw [← Option.some.inj h]
  refine ⟨?_, fun pt => ?_, fun q => ?_⟩
  · rw [List.map_append, List.map_append, hn.vector]
    rfl
  · rw [lastWrite_concat, StdMap.find_assign, hn.outIn]
    by_cases hp : pt = codec.payloadType <;> simp [hp]
  · rw [List.map_append, List.map_singleton, Prod.swap_prod_mk, lastWrite_concat, StdMap.find_assign,
      hn.inOut]

theorem MapsHold.touch (hn : MapsHold agreed looked n) (pt : UInt32) :
    MapsHold agreed (looked ++ [pt]) (n.touch pt) := by
  refine ⟨hn.vector, fun p => ?_, hn.inOut⟩
  rw [Negotiated.touch, StdMap.find_insert, hn.outIn, hn.outIn]
  by_cases hp : p = pt
  · subst hp
    cases lastWrite p agreed <;> by_cases hp : p ∈ looked <;> simp [hp]
  · simp [hp]

theorem MapsHold.lookUp (hn : MapsHold agreed looked n) (pt : UInt32) :
    n.lookUp pt = (lastWrite pt agreed).getD 0 := by
  rw [Negotiated.lookUp, hn.outIn]
  cases lastWrite pt agreed with
  | none => by_cases hp : pt ∈ looked <;> simp [hp]
  | some q => rfl

/-- The second loops agree as `agreeRtx` does and look up every associated payload type
that they compare. -/
theorem MapsHold.matchRtx {rtxMap internal : RtpMap} (hn : MapsHold agreed looked n)
    (h : matchRtx rtxMap internal n = some n') :
    MapsHold (agreeRtx agreed (rtxMap, internal))
      (looked ++ ((aptPair rtxMap internal).map (·.1)).toList) n' := by
  rw [agreeRtx]
  rcases matchRtx_cases h with ⟨hapt, rfl⟩ | ⟨parsedApt, internalApt, hapt, ⟨hl, hp⟩ | ⟨hl, rfl⟩⟩
  · rw [hapt]
    simpa using hn
  · rw [hn.lookUp] at hl
    simpa [hapt, hl] using (hn.touch parsedApt).push hp
  · rw [hn.lookUp] at hl
    simpa [hapt, hl] using hn.touch parsedApt

theorem MapsHold.pushAll {entries : List (UInt32 × RtpMap)} (hn : MapsHold agreed looked n)
    (h : n.pushAll entries = some n') :
    MapsHold (agreed ++ entries.map fun entry => (entry.2.payloadType, entry.1)) looked n' := by
  induction entries generalizing n agreed with
  | nil =>
    obtain rfl := Option.some.inj h
    rwa [List.map_nil, List.append_nil]
  | cons entry entries ih =>
    obtain ⟨mid, hmid, h⟩ := foldlM_cons_eq_some.mp h
    rw [List.map_cons, List.append_cons]
    exact ih (hn.push hmid) h

theorem MapsHold.matchAllRtx {pairs : List (RtpMap × RtpMap)} (hn : MapsHold agreed looked n)
    (h : pairs.foldlM (fun n pair => Sdp.matchRtx pair.1 pair.2 n) n = some n') :
    MapsHold (pairs.foldl agreeRtx agreed)
      (looked ++ pairs.flatMap fun pair => ((aptPair pair.1 pair.2).map (·.1)).toList) n' := by
  induction pairs generalizing n agreed looked with
  | nil =>
    obtain rfl := Option.some.inj h
    rwa [List.flatMap_nil, List.append_nil]
  | cons pair pairs ih =>
    obtain ⟨mid, hmid, h⟩ := foldlM_cons_eq_some.mp h
    rw [List.flatMap_cons, ← List.append_assoc]
    exact ih (hn.matchRtx hmid) h

theorem negotiateRtx_eq (internal rtxMaps : List RtpMap) : negotiateRtx internal rtxMaps n =
    (rtxMaps ×ˢ internal).foldlM (fun n pair => Sdp.matchRtx pair.1 pair.2 n) n := by
  rw [foldlM_product]
  rfl

/-- The maps hold what the internal list and the description agree on. -/
theorem MapsHold.negotiate {internal : List RtpMap} {parsed : StdMap UInt32 RtpMap}
    (hn : MapsHold agreed looked n) (h : negotiate internal parsed n = some n') :
    MapsHold (agreeOn internal parsed agreed) (looked ++ lookedUp internal parsed) n' := by
  obtain ⟨⟨mid, rtxMaps⟩, hcodecs, h⟩ := Option.bind_eq_some_iff.mp h
  rw [negotiateCodecs_eq] at hcodecs
  obtain ⟨hpush, hkeep, -⟩ := matchAll_spec hcodecs
  have hmid := hn.pushAll hpush
  rw [List.map_map] at hmid
  dsimp only at h hkeep
  rw [hkeep, List.nil_append, negotiateRtx_eq] at h
  exact hmid.matchAllRtx h

theorem MapsHold.mem_vector_iff (hn : MapsHold agreed looked n) {pt : UInt32} :
    (∃ codec ∈ n.payloadVector, codec.payloadType = pt) ↔ pt ∈ agreed.map (·.1) := by
  rw [← hn.vector, List.mem_map]

theorem MapsHold.isSome_outIn_iff (hn : MapsHold agreed looked n) {pt : UInt32} :
    (n.outInPTMap.find pt).isSome ↔ pt ∈ agreed.map (·.1) ∨ pt ∈ looked := by
  rw [hn.outIn, Option.isSome_or, Bool.or_eq_true, isSome_lastWrite_iff]
  split_ifs with hp <;> simp [hp]

/-- An agreement is found again under its internal payload type if and only if no later
one has the same internal payload type. -/
theorem MapsHold.inOut_iff {before behind : Agreed} {pt : UInt32}
    (hn : MapsHold (before ++ (pt, internalPT) :: behind) looked n)
    (hpt : pt ∉ behind.map (·.1)) :
    n.inOutPTMap.find internalPT = some pt ↔ internalPT ∉ behind.map (·.2) := by
  have hmap : (behind.map Prod.swap).map (·.1) = behind.map (·.2) := by
    rw [List.map_map]
    rfl
  rw [hn.inOut, List.map_append, List.map_cons, Prod.swap_prod_mk, ← hmap]
  constructor
  · intro h hmem
    obtain ⟨p, hp⟩ := Option.isSome_iff_exists.mp (isSome_lastWrite_iff.mpr hmem)
    rw [lastWrite_append, lastWrite, hp, Option.some_or, Option.some_or] at h
    obtain rfl := Option.some.inj h
    obtain ⟨agreement, hm, heq⟩ := List.mem_map.mp (mem_of_lastWrite hp)
    exact hpt (List.mem_map.mpr ⟨agreement, hm, congrArg Prod.snd heq⟩)
  · intro h
    exact lastWrite_eq_some_iff.mpr ⟨_, _, rfl, h⟩

/-- The maps are consistent if and only if nothing was looked up that is not agreed on and
the agreements keep their internal payload types. -/
theorem MapsHold.consistent_iff {info : SdpInfo} (h : MapsHold agreed looked info.toNegotiated) :
    info.PayloadTypesConsistent ↔ (∀ pt ∈ looked, pt ∈ agreed.map (·.1)) ∧ agreed.Kept := by
  constructor
  · intro hc
    constructor
    · intro pt hpt
      exact h.mem_vector_iff.mp ((hc.keys pt).mp (h.isSome_outIn_iff.mpr (.inr hpt)))
    · rintro before pt internalPT behind rfl hpt
      obtain ⟨codec, hcodec, rfl⟩ := h.mem_vector_iff.mpr
        (List.mem_map.mpr ⟨(pt, internalPT), by simp, rfl⟩)
      obtain ⟨q, hout, hin⟩ := hc.inverse codec hcodec
      rw [h.outIn, lastWrite_eq_some_iff.mpr ⟨_, _, rfl, hpt⟩, Option.some_or] at hout
      rw [← Option.some.inj hout] at hin
      exact (h.inOut_iff hpt).mp hin
  · rintro ⟨hlooked, hkept⟩
    have hkeys (pt) : (info.outInPTMap.find pt).isSome ↔
        ∃ codec ∈ info.payloadVector, codec.payloadType = pt := by
      rw [h.isSome_outIn_iff, h.mem_vector_iff]
      exact or_iff_left_of_imp (hlooked pt)
    refine ⟨hkeys, fun codec hcodec => ?_, fun pt hpt => ?_⟩
    · have hmem := h.mem_vector_iff.mp ⟨codec, hcodec, rfl⟩
      obtain ⟨q, hq⟩ := Option.isSome_iff_exists.mp (isSome_lastWrite_iff.mpr hmem)
      obtain ⟨before, behind, rfl, hpt⟩ := lastWrite_eq_some_iff.mp hq
      refine ⟨q, by rw [h.outIn, hq, Option.some_or], ?_⟩
      exact (h.inOut_iff hpt).mpr (hkept _ _ _ _ rfl hpt)
    · have hnone : info.outInPTMap.find pt = none := by
        rw [← Option.not_isSome_iff_eq_none, hkeys]
        exact fun ⟨codec, hcodec, heq⟩ => hpt codec hcodec heq
      simp [SdpInfo.getVideoInternalPT, SdpInfo.getAudioInternalPT, hnone]

/-- After a description without credentials, or with all looked up payload types agreed
on and all internal payload types kept, the maps are consistent, and only then. -/
theorem payloadTypes_consistent_iff {internal : List RtpMap} {sdp media : Text} {info : SdpInfo}
    {b : Bool} (h : (SdpInfo.new internal).processSdp sdp media = some (info, b)) :
    info.PayloadTypesConsistent ↔ describedUsers sdp media = ([], []) ∨
      (∀ pt ∈ lookedUp internal (describedCodecs sdp media),
        pt ∈ (agreeOn internal (describedCodecs sdp media) []).map (·.1)) ∧
      (agreeOn internal (describedCodecs sdp media) []).Kept := by
  have hnew : MapsHold [] [] {} := ⟨rfl, fun _ => rfl, fun _ => rfl⟩
  obtain ⟨loop, hloop, ⟨hno, -, rfl⟩ | ⟨hno, -, negotiated, hn, rfl⟩⟩ := processSdp_cases h
  · rw [noCredentials_iff hloop] at hno
    have hmaps : MapsHold [] [] loop.info.toNegotiated := by
      rwa [(readLines_codecs hloop).negotiated]
    rw [hmaps.consistent_iff]
    simp [hno, Agreed.Kept]
  · rw [noCredentials_iff hloop] at hno
    have hstep := readLines_codecs hloop
    rw [hstep.negotiated, hstep.internal, hstep.parsed] at hn
    have hmaps := hnew.negotiate hn
    rw [or_iff_right hno]
    exact hmaps.consistent_iff

/-- Payload type, name and clock rate of the `a=rtpmap` lines of a description. -/
def rtpmapsOf (sdp : Text) : List (UInt32 × Text × UInt32) :=
  (getlines sdp).filterMap fun line => if line.Has Marker.rtpmap then parseRtpmap line else none

/-- VP8 with retransmissions, and a codec that is not known with retransmissions. -/
def unknownCodec : Text :=
  textOf ["m=video", "a=ice-ufrag:user", "a=rtpmap:100 VP8/90000", "a=rtpmap:96 rtx/90000",
    "a=fmtp:96 apt=100", "a=rtpmap:107 H264/90000", "a=rtpmap:99 rtx/90000", "a=fmtp:99 apt=107"]

theorem payloadTypes_consistent_iff_unknownCodec : ∃ info,
    (SdpInfo.new vp8WithRtx).processSdp unknownCodec [] = some (info, true) ∧
      (info.PayloadTypesConsistent ↔ describedUsers unknownCodec [] = ([], []) ∨
        (∀ pt ∈ lookedUp vp8WithRtx (describedCodecs unknownCodec []),
          pt ∈ (agreeOn vp8WithRtx (describedCodecs unknownCodec []) []).map (·.1)) ∧
        (agreeOn vp8WithRtx (describedCodecs unknownCodec []) []).Kept) ∧
      lookedUp vp8WithRtx (describedCodecs unknownCodec []) = [100, 107] ∧
      agreeOn vp8WithRtx (describedCodecs unknownCodec []) [] = [(100, 100), (96, 96)] := by
  have hrun : ((SdpInfo.new vp8WithRtx).processSdp unknownCodec []).map (·.2) = some true ∧
      lookedUp vp8WithRtx (describedCodecs unknownCodec []) = [100, 107] ∧
      agreeOn vp8WithRtx (describedCodecs unknownCodec []) [] = [(100, 100), (96, 96)] := by
    decide +kernel
  obtain ⟨hrun, hlooked, hagreed⟩ := hrun
  obtain ⟨⟨info, b⟩, hrun, rfl⟩ := Option.map_eq_some_iff.mp hrun
  exact ⟨info, hrun, payloadTypes_consistent_iff hrun, hlooked, hagreed⟩

/-- The retransmissions of the unknown codec make its payload type 0. -/
theorem payloadTypes_inconsistent : ¬ ∀ (internal : List RtpMap) (sdp media : Text) (info : SdpInfo)
    (b : Bool), internal.Pairwise (fun x y => ¬ SameCodec x y) →
    (rtpmapsOf sdp).Pairwise (fun x y => x.2 = y.2 → x.2.1 = rtx) →
    (SdpInfo.new internal).processSdp sdp media = some (info, b) → info.PayloadTypesConsistent := by
  intro h
  have hrun : ((SdpInfo.new vp8WithRtx).processSdp unknownCodec []).map (fun result =>
        (result.1.payloadVector.map (·.payloadType), result.1.getVideoInternalPT 107)) =
          some ([100, 96], 0) ∧
      vp8WithRtx.Pairwise (fun x y => ¬ SameCodec x y) ∧
      (rtpmapsOf unknownCodec).Pairwise (fun x y => x.2 = y.2 → x.2.1 = rtx) := by
    decide
  obtain ⟨hrun, hinternal, hrtpmaps⟩ := hrun
  obtain ⟨⟨info, b⟩, hrun, heq⟩ := Option.map_eq_some_iff.mp hrun
  obtain ⟨hvector, hzero⟩ := Prod.mk.inj heq
  have hc := h vp8WithRtx unknownCodec [] info b hinternal hrtpmaps hrun
  have hne : ∀ codec ∈ info.payloadVector, codec.payloadType ≠ 107 := by
    intro codec hm heq
    have h107 : codec.payloadType ∈ [100, 96] := hvector ▸ List.mem_map_of_mem hm
    rw [heq] at h107
    exact absurd h107 (by decide)
  have h107 := (hc.unchanged 107 hne).2
  rw [show info.getVideoInternalPT 107 = 0 from hzero] at h107
  exact absurd h107 (by decide)

end KkLicode.Sdp
