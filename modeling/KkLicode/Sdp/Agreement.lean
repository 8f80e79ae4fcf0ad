import KkLicode.Base.Folds
import KkLicode.Sdp.LineSteps
import KkLicode.Sdp.Negotiation
import Mathlib.Data.List.Forall2

/-! What the negotiation agrees on. The first loops agree on the pairs of an internal
codec and a codec of the description with equal name and clock rate, the second ones
only on retransmission codecs. The counters count the codecs that are agreed on. -/

namespace KkLicode.Sdp

open Base Folds CodecWrite

variable {n n' : Negotiated} {codec : RtpMap} {internalPT : UInt32}

/-- Equal name and clock rate. -/
def SameCodec (internal parsed : RtpMap) : Prop :=
  internal.encodingName = parsed.encodingName ∧ internal.clockRate = parsed.clockRate

instance (internal parsed : RtpMap) : Decidable (SameCodec internal parsed) :=
  inferInstanceAs (Decidable (_ ∧ _))

/-- The pairs of an internal codec and a codec of the description that are agreed on by
the first loops. -/
def mediaPairs (internal : List RtpMap) (parsed : StdMap UInt32 RtpMap) :
    List (RtpMap × UInt32 × RtpMap) :=
  (internal ×ˢ parsed.pairs).filter fun pair =>
    SameCodec pair.1 pair.2.2 ∧ pair.2.2.encodingName ≠ rtx

/-- Agree on the codecs in order, each under an internal payload type. -/
def Negotiated.pushAll (n : Negotiated) (agreed : List (UInt32 × RtpMap)) : Option Negotiated :=
  agreed.foldlM (fun n entry => n.push entry.1 entry.2) n

/-- The counters count the codecs of the vector. -/
structure Negotiated.Counted (n : Negotiated) : Prop where
  video : n.videoCodecs = n.payloadVector.countP fun codec => codec.mediaType = some .video
  audio : n.audioCodecs = n.payloadVector.countP fun codec => codec.mediaType ≠ some .video

theorem Negotiated.payloadVector_push (h : n.push internalPT codec = some n') :
    n'.payloadVector = n.payloadVector ++ [codec] := by
  obtain ⟨mtype, -, h⟩ := Option.bind_eq_some_iff.mp h
  rw [← Option.some.inj h]

theorem Negotiated.Counted.push (hn : n.Counted) (h : n.push internalPT codec = some n') :
    n'.Counted := by
  obtain ⟨mtype, hm, h⟩ := Option.bind_eq_some_iff.mp h
  rw [← Option.some.inj h]
  constructor <;> rw [List.countP_append, List.countP_singleton, hm]
  · by_cases hv : mtype = .video <;> simp [hv, hn.video]
  · by_cases hv : mtype = .video <;> simp [hv, hn.audio]

theorem Negotiated.payloadVector_pushAll {agreed : List (UInt32 × RtpMap)}
    (h : n.pushAll agreed = some n') :
    n'.payloadVector = n.payloadVector ++ agreed.map (·.2) := by
  induction agreed generalizing n with
  | nil =>
    obtain rfl := Option.some.inj h
    exact (List.append_nil _).symm
  | cons entry agreed ih =>
    obtain ⟨mid, hmid, h⟩ := foldlM_cons_eq_some.mp h
    rw [ih h, payloadVector_push hmid, List.append_assoc]
    rfl

/-- A pair with different codecs changes nothing, a retransmission codec is kept for
later, and every other codec is agreed on. -/
theorem matchCodec_cases {internal parsed : RtpMap} {s s' : Negotiated × List RtpMap}
    (h : matchCodec internal parsed s = some s') :
    ¬ SameCodec internal parsed ∧ s' = s ∨
    SameCodec internal parsed ∧ parsed.encodingName = rtx ∧ s' = (s.1, s.2 ++ [parsed]) ∨
    SameCodec internal parsed ∧ parsed.encodingName ≠ rtx ∧ (∃ clock, parsed.clockRate = some clock) ∧
      s.1.push internal.payloadType (negotiateMap internal parsed) = some s'.1 ∧ s'.2 = s.2 := by
  rw [matchCodec] at h
  by_cases hname : internal.encodingName = parsed.encodingName
  swap
  · rw [if_pos hname] at h
    exact .inl ⟨fun hsame => hname hsame.1, (Option.some.inj h).symm⟩
  rw [if_neg (not_not.mpr hname)] at h
  simp only [Option.bind_eq_bind, Option.bind_eq_some_iff] at h
  obtain ⟨clock, hc, clock', hc', h⟩ := h
  split_ifs at h with hne hrtx
  · refine .inl ⟨fun hsame => hne ?_, (Option.some.inj h).symm⟩
    rw [← Option.some.injEq, ← hc, ← hc', hsame.2]
  · exact .inr (.inl ⟨⟨hname, by rw [hc, hc', not_not.mp hne]⟩, hrtx, (Option.some.inj h).symm⟩)
  · obtain ⟨mid, hmid, h⟩ := Option.bind_eq_some_iff.mp h
    rw [← Option.some.inj h]
    exact .inr (.inr ⟨⟨hname, by rw [hc, hc', not_not.mp hne]⟩, hrtx, ⟨clock', hc'⟩, hmid, rfl⟩)

theorem negotiateCodecs_eq (internal : List RtpMap) (parsed : StdMap UInt32 RtpMap) :
    negotiateCodecs internal parsed n =
      (internal ×ˢ parsed.pairs).foldlM (fun s pair => matchCodec pair.1 pair.2.2 s) (n, []) := by
  rw [foldlM_product]
  rfl

/-- What a pair is agreed on as. -/
def agreement (pair : RtpMap × UInt32 × RtpMap) : UInt32 × RtpMap :=
  (pair.1.payloadType, negotiateMap pair.1 pair.2.2)

/-- After the first loops over some pairs the ones of media codecs are agreed on and the
retransmission codecs of the others are kept. -/
theorem matchAll_spec {pairs : List (RtpMap × UInt32 × RtpMap)} {s s' : Negotiated × List RtpMap}
    (h : pairs.foldlM (fun s pair => matchCodec pair.1 pair.2.2 s) s = some s') :
    s.1.pushAll ((pairs.filter fun pair =>
        SameCodec pair.1 pair.2.2 ∧ pair.2.2.encodingName ≠ rtx).map agreement) = some s'.1 ∧
      s'.2 = s.2 ++ (pairs.filter fun pair =>
        SameCodec pair.1 pair.2.2 ∧ pair.2.2.encodingName = rtx).map (·.2.2) ∧
      ∀ pair ∈ pairs, SameCodec pair.1 pair.2.2 → pair.2.2.encodingName ≠ rtx →
        ∃ clock, pair.2.2.clockRate = some clock := by
  induction pairs generalizing s with
  | nil =>
    obtain rfl := Option.some.inj h
    exact ⟨rfl, (List.append_nil _).symm, fun _ hp => absurd hp List.not_mem_nil⟩
  | cons pair pairs ih =>
    obtain ⟨mid, hmid, h⟩ := foldlM_cons_eq_some.mp h
    obtain ⟨hpush, hkeep, hclock⟩ := ih h
    rw [List.forall_mem_cons]
    rcases matchCodec_cases hmid with ⟨hsame, rfl⟩ | ⟨hsame, hrtx, rfl⟩ | ⟨hsame, hrtx, hc, hp, hk⟩
    · rw [List.filter_cons_of_neg (by simp [hsame]), List.filter_cons_of_neg (by simp [hsame])]
      exact ⟨hpush, hkeep, fun hs => absurd hs hsame, hclock⟩
    · rw [List.filter_cons_of_neg (by simp [hrtx]), List.filter_cons_of_pos (by simp [hsame, hrtx])]
      exact ⟨hpush, hkeep.trans (List.append_assoc _ _ _), fun _ hne => absurd hrtx hne, hclock⟩
    · rw [List.filter_cons_of_pos (by simp [hsame, hrtx]), List.filter_cons_of_neg (by simp [hrtx])]
      exact ⟨foldlM_cons_eq_some.mpr ⟨_, hp, hpush⟩, hk ▸ hkeep, fun _ _ => hc, hclock⟩

theorem mem_commonFeedback {internal parsed : List Text} {type : Text} :
    type ∈ commonFeedback internal parsed ↔ type ∈ internal ∧ type ∈ parsed := by
  simp only [commonFeedback, List.mem_flatMap, List.mem_filter, decide_eq_true_eq]
  exact ⟨fun ⟨_, hi, hp, heq⟩ => heq ▸ ⟨hi, heq ▸ hp⟩, fun ⟨hi, hp⟩ => ⟨type, hi, hp, rfl⟩⟩

theorem find_commonParameters {internal parsed : StdMap Text Text} {option value : Text} :
    (commonParameters internal parsed).find option = some value ↔
      internal.find option = some value ∧ parsed.find option = some value := by
  -- the accumulated parameters are parameters of the description
  have key (l : List (Text × Text)) (acc : StdMap Text Text)
      (hacc : ∀ option value, acc.find option = some value → parsed.find option = some value) :
      (l.foldl (fun negotiated parameter =>
        if parsed.find parameter.1 = some parameter.2 then
          negotiated.assign parameter.1 parameter.2
        else negotiated) acc).find option = some value ↔
      acc.find option = some value ∨ (option, value) ∈ l ∧ parsed.find option = some value := by
    induction l generalizing acc with
    | nil => simp
    | cons parameter l ih =>
      rw [List.foldl_cons]
      split_ifs with hp
      · rw [ih _ fun o v hv => ?_, StdMap.find_assign]
        · split_ifs with ho
          · subst ho
            have : acc.find parameter.1 = some value → value = parameter.2 := fun hv => by
              simpa [hp, eq_comm] using hacc _ _ hv
            constructor
            · rintro (hv | ⟨hm, hv⟩)
              · exact .inr ⟨by rw [← Option.some.inj hv]; exact List.mem_cons_self, hv ▸ hp⟩
              · exact .inr ⟨List.mem_cons_of_mem _ hm, hv⟩
            · rintro (hv | ⟨-, hv⟩)
              · exact .inl (this hv ▸ rfl)
              · exact .inl (hp.symm.trans hv)
          · rw [List.mem_cons, or_iff_right (fun he => ho (congrArg Prod.fst he))]
        · rw [StdMap.find_assign] at hv
          split_ifs at hv with ho
          · rw [ho, hp, hv]
          · exact hacc _ _ hv
      · rw [ih _ hacc, List.mem_cons]
        refine or_congr_right (and_congr_left fun hv => (or_iff_right fun he => hp ?_).symm)
        rw [← he, hv]
  rw [commonParameters, key _ _ (by simp), StdMap.find_empty]
  simp [StdMap.mem_pairs_iff]

/-- The associated payload type of a retransmission codec. -/
def associatedPt (codec : RtpMap) : Option UInt32 := do
  return (← stoul (← codec.formatParameters.find kAssociatedPt)).toUInt32

/-- The associated payload types that the second loops compare: the one of the
description and the internal one. -/
def aptPair (rtxMap internal : RtpMap) : Option (UInt32 × UInt32) :=
  if internal.encodingName = rtx then do return (← associatedPt rtxMap, ← associatedPt internal)
  else none

/-- The internal payload type that the second loops find, and the map that is left. -/
def Negotiated.lookUp (n : Negotiated) (pt : UInt32) : UInt32 := (n.outInPTMap.find pt).getD 0

def Negotiated.touch (n : Negotiated) (pt : UInt32) : Negotiated :=
  { n with outInPTMap := n.outInPTMap.insert pt 0 }

theorem Negotiated.Counted.touch (hn : n.Counted) (pt : UInt32) : (n.touch pt).Counted :=
  ⟨hn.video, hn.audio⟩

/-- What the second loops do with a pair, in every state if they have a result in one:
without associated payload types nothing, and otherwise the one of the description is
looked up and the codec is agreed on if the internal one is found. -/
theorem matchRtx_eq {rtxMap internal : RtpMap} {m m' : Negotiated}
    (h : matchRtx rtxMap internal m = some m') (n : Negotiated) :
    matchRtx rtxMap internal n = match aptPair rtxMap internal with
      | none => some n
      | some apts =>
        if n.lookUp apts.1 = apts.2 then (n.touch apts.1).push internal.payloadType rtxMap
        else some (n.touch apts.1) := by
  rw [matchRtx] at h ⊢
  by_cases hname : internal.encodingName = rtx
  swap
  · rw [if_pos hname, aptPair, if_neg hname]
  rw [if_neg (not_not.mpr hname)] at h ⊢
  cases hp : rtxMap.formatParameters.find kAssociatedPt with
  | none =>
    cases hi : internal.formatParameters.find kAssociatedPt with
    | none => simp [aptPair, associatedPt, hp]
    | some internalApt =>
      rw [hp, hi] at h
      cases h
  | some parsedApt =>
    cases hi : internal.formatParameters.find kAssociatedPt with
    | none =>
      rw [hp, hi] at h
      cases h
    | some internalApt =>
      rw [hp, hi] at h
      obtain ⟨internalPt, hint, h⟩ := Option.bind_eq_some_iff.mp h
      obtain ⟨parsedPt, hpar, h⟩ := Option.bind_eq_some_iff.mp h
      have hapt : aptPair rtxMap internal = some (parsedPt.toUInt32, internalPt.toUInt32) := by
        simp [aptPair, associatedPt, hp, hi, hint, hpar, hname]
      have hfind : (n.outInPTMap.insert parsedPt.toUInt32 0).find parsedPt.toUInt32 =
          some (n.lookUp parsedPt.toUInt32) := by
        rw [StdMap.find_insert, if_pos rfl]
        rfl
      simp only [hint, hpar, hapt, Option.bind_eq_bind, Option.bind_some, hfind, Option.some.injEq]
      rfl

theorem matchRtx_cases {rtxMap internal : RtpMap} (h : matchRtx rtxMap internal n = some n') :
    aptPair rtxMap internal = none ∧ n' = n ∨
    ∃ parsedApt internalApt, aptPair rtxMap internal = some (parsedApt, internalApt) ∧
      (n.lookUp parsedApt = internalApt ∧
          (n.touch parsedApt).push internal.payloadType rtxMap = some n' ∨
        n.lookUp parsedApt ≠ internalApt ∧ n' = n.touch parsedApt) := by
  rw [matchRtx_eq h] at h
  cases hapt : aptPair rtxMap internal with
  | none =>
    rw [hapt] at h
    exact .inl ⟨rfl, (Option.some.inj h).symm⟩
  | some apts =>
    rw [hapt] at h
    dsimp only at h
    refine .inr ⟨apts.1, apts.2, rfl, ?_⟩
    split_ifs at h with heq
    · exact .inl ⟨heq, h⟩
    · exact .inr ⟨heq, (Option.some.inj h).symm⟩

/-- All codecs behind some are retransmission codecs, and all are counted. -/
structure RtxBehind (codecs : List RtpMap) (n : Negotiated) : Prop where
  counted : n.Counted
  behind : ∃ agreed : List RtpMap, (∀ codec ∈ agreed, codec.encodingName = rtx) ∧
    n.payloadVector = codecs ++ agreed

theorem RtxBehind.matchRtx {codecs : List RtpMap} {rtxMap internal : RtpMap}
    (hn : RtxBehind codecs n) (hrtx : rtxMap.encodingName = rtx)
    (h : matchRtx rtxMap internal n = some n') : RtxBehind codecs n' := by
  obtain ⟨hc, agreed, hname, hv⟩ := hn
  rcases matchRtx_cases h with ⟨-, rfl⟩ | ⟨parsedApt, internalApt, -, ⟨-, hp⟩ | ⟨-, rfl⟩⟩
  · exact ⟨hc, agreed, hname, hv⟩
  · refine ⟨(hc.touch parsedApt).push hp, agreed ++ [rtxMap], ?_, ?_⟩
    · simpa [or_imp, forall_and] using ⟨hname, hrtx⟩
    · rw [Negotiated.payloadVector_push hp, ← List.append_assoc, ← hv]
      rfl
  · exact ⟨hc.touch parsedApt, agreed, hname, hv⟩

/-- What the second loops add is retransmission codecs, and they are counted. -/
theorem RtxBehind.negotiateRtx {codecs : List RtpMap} {internal rtxMaps : List RtpMap}
    (hn : RtxBehind codecs n) (hrtx : ∀ codec ∈ rtxMaps, codec.encodingName = rtx)
    (h : negotiateRtx internal rtxMaps n = some n') : RtxBehind codecs n' :=
  foldlM_invariant (RtxBehind codecs) (fun rtxMap hmem hstep hm =>
    foldlM_invariant (RtxBehind codecs) (fun _ _ hstep hm => hm.matchRtx (hrtx rtxMap hmem) hstep)
      hstep hm) h hn

theorem Negotiated.Counted.pushAll {agreed : List (UInt32 × RtpMap)} (hn : n.Counted)
    (h : n.pushAll agreed = some n') : n'.Counted :=
  foldlM_invariant Negotiated.Counted (fun _ _ hstep hm => hm.push hstep) h hn

/-- How an agreed codec comes from an internal codec and an entry of the description. -/
structure NegotiatedFrom (pair : RtpMap × UInt32 × RtpMap) (codec : RtpMap) : Prop where
  payloadType : codec.payloadType = pair.2.1
  encodingName : codec.encodingName = pair.2.2.encodingName
  clockRate : ∃ clock, pair.1.clockRate = some clock ∧ pair.2.2.clockRate = some clock ∧
    codec.clockRate = some clock
  mediaType : codec.mediaType = pair.2.2.mediaType
  channels : codec.channels = pair.1.channels
  feedbackTypes (type : Text) : type ∈ codec.feedbackTypes ↔
    type ∈ pair.1.feedbackTypes ∧ type ∈ pair.2.2.feedbackTypes
  formatParameters (option value : Text) : codec.formatParameters.find option = some value ↔
    pair.1.formatParameters.find option = some value ∧
      pair.2.2.formatParameters.find option = some value

/-- What is agreed for a pair is negotiated from it. -/
theorem negotiatedFrom_negotiateMap {pair : RtpMap × UInt32 × RtpMap} {clock : UInt32}
    (hkey : pair.2.2.payloadType = pair.2.1) (hsame : SameCodec pair.1 pair.2.2)
    (hclock : pair.2.2.clockRate = some clock) :
    NegotiatedFrom pair (negotiateMap pair.1 pair.2.2) where
  payloadType := hkey
  encodingName := rfl
  clockRate := ⟨clock, hsame.2.trans hclock, hclock, hclock⟩
  mediaType := rfl
  channels := rfl
  feedbackTypes _ := mem_commonFeedback
  formatParameters _ _ := find_commonParameters

/-- The negotiation of a description that agreed on nothing before. -/
theorem negotiate_spec {internal : List RtpMap} {parsed : StdMap UInt32 RtpMap}
    (hkey : Keyed parsed) (h : negotiate internal parsed {} = some n') :
    List.Forall₂ NegotiatedFrom (mediaPairs internal parsed)
        (n'.payloadVector.filter fun codec => codec.encodingName ≠ rtx) ∧
      n'.Counted := by
  obtain ⟨⟨n, rtxMaps⟩, hcodecs, h⟩ := Option.bind_eq_some_iff.mp h
  rw [negotiateCodecs_eq] at hcodecs
  obtain ⟨hpush, hkeep, hclock⟩ := matchAll_spec hcodecs
  have hvector : n.payloadVector = (mediaPairs internal parsed).map fun pair =>
      negotiateMap pair.1 pair.2.2 := by
    rw [Negotiated.payloadVector_pushAll hpush, List.map_map]
    rfl
  have hcounted : n.Counted := Negotiated.Counted.pushAll ⟨rfl, rfl⟩ hpush
  have hrtx (codec) (hm : codec ∈ rtxMaps) : codec.encodingName = rtx := by
    rw [show rtxMaps = _ from hkeep, List.nil_append] at hm
    obtain ⟨pair, hp, rfl⟩ := List.mem_map.mp hm
    exact (of_decide_eq_true (List.mem_filter.mp hp).2).2
  obtain ⟨hcounted, agreed, hname, hv⟩ :=
    RtxBehind.negotiateRtx ⟨hcounted, [], by simp, (List.append_nil _).symm⟩ hrtx h
  refine ⟨?_, hcounted⟩
  have hmem {pair} (hp : pair ∈ mediaPairs internal parsed) :
      pair ∈ internal ×ˢ parsed.pairs ∧ SameCodec pair.1 pair.2.2 ∧
        pair.2.2.encodingName ≠ rtx := by
    simpa [mediaPairs] using hp
  have hnil : agreed.filter (fun codec => codec.encodingName ≠ rtx) = [] :=
    List.filter_eq_nil_iff.mpr (by simpa using hname)
  rw [hv, List.filter_append, hnil, List.append_nil, hvector, List.filter_eq_self.mpr,
    List.forall₂_map_right_iff, List.forall₂_same]
  · intro pair hp
    obtain ⟨hin, hsame, hne⟩ := hmem hp
    obtain ⟨clock, hclock⟩ := hclock pair hin hsame hne
    exact negotiatedFrom_negotiateMap
      (hkey (StdMap.mem_pairs_iff.mp (List.mem_product.mp hin).2)) hsame hclock
  · intro codec hc
    obtain ⟨pair, hp, rfl⟩ := List.mem_map.mp hc
    exact decide_eq_true (hmem hp).2.2

/-- What is filled in behind the lines is nothing that the negotiation reads. -/
theorem fill_eq (info : SdpInfo) : ∃ username username' password password' fill,
    info.fillCredentials.fillCandidates.fillSsrcList = { info with
      iceVideoUsername := username
      iceAudioUsername := username'
      iceVideoPassword := password
      iceAudioPassword := password'
      candidateVector := info.candidateVector.map fill
      videoSsrcList := if info.videoSsrcList = [] then [0] else info.videoSsrcList } := by
  simp only [SdpInfo.fillCredentials, SdpInfo.fillCandidates, SdpInfo.fillSsrcList]
  split_ifs <;> exact ⟨_, _, _, _, _, rfl⟩

/-- What a call makes of its lines. -/
theorem processSdp_of_readLines {info : SdpInfo} {sdp media : Text} {loop : Loop}
    (h : readLines info sdp media = some loop) : info.processSdp sdp media =
      if loop.info.NoCredentials then some (loop.info, false)
      else (negotiate loop.info.internalPayloadVector loop.info.payloadParsedMap
        loop.info.toNegotiated).map fun negotiated =>
          ({ loop.info.fillCredentials.fillCandidates.fillSsrcList with
            toNegotiated := negotiated }, true) := by
  obtain ⟨_, _, _, _, _, heq⟩ := fill_eq loop.info
  rw [SdpInfo.processSdp, h, Option.bind_eq_bind, Option.bind_some]
  split_ifs
  · rfl
  · simp only [heq]
    cases negotiate loop.info.internalPayloadVector loop.info.payloadParsedMap
      loop.info.toNegotiated <;> rfl

/-- A description without credentials ends the call; the other ones are negotiated with
what was agreed on before. -/
theorem processSdp_cases {info info' : SdpInfo} {sdp media : Text} {b : Bool}
    (h : info.processSdp sdp media = some (info', b)) :
    ∃ loop, readLines info sdp media = some loop ∧
      (loop.info.NoCredentials ∧ b = false ∧ info' = loop.info ∨
      ¬ loop.info.NoCredentials ∧ b = true ∧ ∃ negotiated,
        negotiate loop.info.internalPayloadVector loop.info.payloadParsedMap
          loop.info.toNegotiated = some negotiated ∧
        info' = { loop.info.fillCredentials.fillCandidates.fillSsrcList with
          toNegotiated := negotiated }) := by
  obtain ⟨loop, hloop, -⟩ := Option.bind_eq_some_iff.mp h
  refine ⟨loop, hloop, ?_⟩
  rw [processSdp_of_readLines hloop] at h
  split_ifs at h with hno
  · cases h
    exact .inl ⟨hno, rfl, rfl⟩
  · obtain ⟨negotiated, hn, h⟩ := Option.map_eq_some_iff.mp h
    cases h
    exact .inr ⟨hno, rfl, negotiated, hn, rfl⟩

theorem noCredentials_iff_users {info : SdpInfo} : info.NoCredentials ↔ info.users = ([], []) := by
  rw [SdpInfo.users, Prod.mk.injEq]
  rfl

/-- The lines of a new description leave no credentials if they describe none. -/
theorem noCredentials_iff {internal : List RtpMap} {sdp media : Text} {loop : Loop}
    (h : readLines (SdpInfo.new internal) sdp media = some loop) :
    loop.info.NoCredentials ↔ describedUsers sdp media = ([], []) := by
  have hu : loop.info.users = describedUsers sdp media := readLines_users h
  rw [← hu, noCredentials_iff_users]

/-- A codec of the description and an internal codec with its name and clock rate are
agreed on, each such pair once and in order, and nothing else but retransmission codecs.
The counters count the codecs that are agreed on. -/
theorem processSdp_agrees {internal : List RtpMap} {info : SdpInfo} {sdp media : Text}
    (h : (SdpInfo.new internal).processSdp sdp media = some (info, true)) :
    List.Forall₂ NegotiatedFrom
        ((internal ×ˢ info.payloadParsedMap.pairs).filter fun pair =>
          SameCodec pair.1 pair.2.2 ∧ pair.2.2.encodingName ≠ rtx)
        (info.payloadVector.filter fun codec => codec.encodingName ≠ rtx) ∧
      info.videoCodecs = info.payloadVector.countP (fun codec => codec.mediaType = some .video) ∧
      info.audioCodecs = info.payloadVector.countP (fun codec => codec.mediaType ≠ some .video) := by
  obtain ⟨loop, hloop, ⟨-, hb, -⟩ | ⟨-, -, negotiated, hn, rfl⟩⟩ := processSdp_cases h
  · cases hb
  have hstep := readLines_codecs hloop
  obtain ⟨_, _, _, _, _, heq⟩ := fill_eq loop.info
  rw [hstep.negotiated, hstep.internal] at hn
  rw [heq]
  have hkey : Keyed loop.info.payloadParsedMap := hstep.parsed ▸ keyed_empty.applyAll _
  obtain ⟨hpairs, hcounted⟩ := negotiate_spec hkey hn
  exact ⟨hpairs, hcounted.video, hcounted.audio⟩

/-- The VP8 codec and its retransmission codec. -/
def vp8WithRtx : List RtpMap := [
  { payloadType := 100
    encodingName := "VP8".toList
    clockRate := some 90000
    mediaType := some .video
    channels := some 1
    feedbackTypes := ["nack".toList, "ccm fir".toList]
    formatParameters := StdMap.empty.assign "profile".toList "0".toList },
  { payloadType := 96
    encodingName := rtx
    clockRate := some 90000
    mediaType := some .video
    channels := some 1
    formatParameters := StdMap.empty.assign kAssociatedPt "100".toList }]

/-- The text of some lines. -/
def textOf (lines : List String) : Text := lines.flatMap fun line => line.toList ++ ['\r', '\n']

/-- VP8 under other payload types, with another feedback type. -/
def vp8Offer : Text :=
  textOf ["m=video", "a=ice-ufrag:user", "a=rtpmap:120 VP8/90000", "a=rtcp-fb:120 nack",
    "a=rtcp-fb:120 goog-remb", "a=rtpmap:121 rtx/90000", "a=fmtp:121 apt=120"]

theorem processSdp_agrees_vp8 : ∃ info,
    (SdpInfo.new vp8WithRtx).processSdp vp8Offer [] = some (info, true) ∧
      (List.Forall₂ NegotiatedFrom
          ((vp8WithRtx ×ˢ info.payloadParsedMap.pairs).filter fun pair =>
            SameCodec pair.1 pair.2.2 ∧ pair.2.2.encodingName ≠ rtx)
          (info.payloadVector.filter fun codec => codec.encodingName ≠ rtx) ∧
        info.videoCodecs = info.payloadVector.countP (fun codec => codec.mediaType = some .video) ∧
        info.audioCodecs = info.payloadVector.countP (fun codec => codec.mediaType ≠ some .video)) ∧
      info.payloadVector.map (·.feedbackTypes) = [["nack".toList], []] := by
  have hrun : ((SdpInfo.new vp8WithRtx).processSdp vp8Offer []).map (fun result =>
      (result.2, result.1.payloadVector.map (·.feedbackTypes))) =
        some (true, [["nack".toList], []]) := by
    decide
  obtain ⟨⟨info, b⟩, hrun, heq⟩ := Option.map_eq_some_iff.mp hrun
  obtain ⟨rfl, hfeedback⟩ := Prod.mk.inj heq
  exact ⟨info, hrun, processSdp_agrees hrun, hfeedback⟩

end KkLicode.Sdp
