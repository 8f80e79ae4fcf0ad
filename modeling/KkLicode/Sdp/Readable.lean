import KkLicode.Sdp.Agreement
import KkLicode.Sdp.ReadableLines

/-! Which descriptions can be processed: the lines are long enough for their handlers,
and the retransmission codecs of both sides can be compared. -/

namespace KkLicode.Sdp

open Base Folds CodecWrite

/-- The associated payload types of two retransmission codecs can be compared: none of them has
one, or both have a number. -/
def AptsReadable (rtxMap internal : RtpMap) : Prop :=
  rtxMap.formatParameters.find kAssociatedPt = none ∧
    internal.formatParameters.find kAssociatedPt = none ∨
  ∃ parsedApt internalApt, rtxMap.formatParameters.find kAssociatedPt = some parsedApt ∧
    internal.formatParameters.find kAssociatedPt = some internalApt ∧
    (stoul parsedApt).isSome ∧ (stoul internalApt).isSome

/-- The codecs of both sides can be compared. A codec that is described without its `rtpmap` line
has the empty name and no clock rate. -/
structure Negotiable (internal : List RtpMap) (parsed : StdMap UInt32 RtpMap) : Prop where
  clocks (codec : RtpMap) (hcodec : codec ∈ internal) (pt : UInt32) (entry : RtpMap)
    (hentry : parsed.find pt = some entry) (hname : codec.encodingName = entry.encodingName) :
    codec.clockRate.isSome ∧ entry.clockRate.isSome
  apts (pt : UInt32) (entry : RtpMap) (hentry : parsed.find pt = some entry)
    (hrtx : entry.encodingName = rtx) (hsame : ∃ codec ∈ internal, SameCodec codec entry)
    (codec : RtpMap) (hcodec : codec ∈ internal) (hcodecRtx : codec.encodingName = rtx) :
    AptsReadable entry codec

/-- Codecs with a clock rate have a section. -/
def Sectioned (parsed : StdMap UInt32 RtpMap) : Prop :=
  ∀ ⦃pt entry⦄, parsed.find pt = some entry → entry.clockRate.isSome → entry.mediaType.isSome

/-- The description of the other side, as calls of `processSdp` leave it. -/
structure RemoteSdp where
  info : SdpInfo
  sectioned : Sectioned info.payloadParsedMap

variable {n : Negotiated} {internal : List RtpMap} {parsed : StdMap UInt32 RtpMap} {codec entry : RtpMap}

theorem sectioned_empty : Sectioned .empty := by
  intro pt entry h
  cases h

theorem Sectioned.apply (h : Sectioned parsed) (w : CodecWrite) : Sectioned (apply parsed w) := by
  have hold : (codecOf parsed w.pt).clockRate.isSome → (codecOf parsed w.pt).mediaType.isSome := by
    rw [codecOf]
    cases hf : parsed.find w.pt with
    | none => exact fun hclock => by simp at hclock
    | some entry => exact h hf
  intro pt entry hf hclock
  rw [CodecWrite.apply, StdMap.find_assign] at hf
  split_ifs at hf with hpt
  · rw [← Option.some.inj hf] at hclock ⊢
    cases w with
    | rtpmap => rfl
    | feedback | parameter => exact hold hclock
  · exact h hf hclock

theorem Sectioned.applyAll (h : Sectioned parsed) (ws : List CodecWrite) :
    Sectioned (applyAll parsed ws) := by
  induction ws generalizing parsed with
  | nil => exact h
  | cons w ws ih => exact ih (h.apply w)

/-- A new description. -/
def RemoteSdp.new (rtpMappings : List RtpMap) : RemoteSdp := ⟨.new rtpMappings, sectioned_empty⟩

/-! ### The negotiation -/

theorem push_isSome_iff {internalPT : UInt32} :
    (n.push internalPT codec).isSome ↔ codec.mediaType.isSome := map_isSome_iff

/-- The body of the first loops. -/
theorem matchCodec_isSome_iff (hsection : entry.clockRate.isSome → entry.mediaType.isSome)
    (s : Negotiated × List RtpMap) : (matchCodec codec entry s).isSome ↔
      (codec.encodingName = entry.encodingName → codec.clockRate.isSome ∧ entry.clockRate.isSome) := by
  rw [matchCodec]
  by_cases hname : codec.encodingName = entry.encodingName
  swap
  · rw [if_pos hname]
    exact iff_of_true rfl fun h => absurd h hname
  rw [if_neg (not_not.mpr hname)]
  simp only [hname, true_imp_iff, Option.bind_eq_bind]
  cases hclock : codec.clockRate with
  | none => simp
  | some clock =>
    cases hclock' : entry.clockRate with
    | none => simp
    | some clock' =>
      simp only [Option.bind_some, Option.isSome_some, and_self, iff_true]
      split_ifs
      · rfl
      · rfl
      · exact map_isSome_iff.mpr (push_isSome_iff.mpr (hsection (by rw [hclock']; rfl)))

/-- The body of the second loops. -/
theorem matchRtx_isSome_iff (hmedia : entry.mediaType.isSome) (n : Negotiated) :
    (matchRtx entry codec n).isSome ↔ (codec.encodingName = rtx → AptsReadable entry codec) := by
  rw [matchRtx]
  by_cases hname : codec.encodingName = rtx
  swap
  · rw [if_pos hname]
    exact iff_of_true rfl fun h => absurd h hname
  rw [if_neg (not_not.mpr hname), AptsReadable]
  simp only [hname, true_imp_iff]
  cases hp : entry.formatParameters.find kAssociatedPt with
  | none =>
    cases hi : codec.formatParameters.find kAssociatedPt with
    | none => simp
    | some internalApt => simp
  | some parsedApt =>
    cases hi : codec.formatParameters.find kAssociatedPt with
    | none => simp
    | some internalApt =>
      -- both numbers are read, the internal one first
      have hread : AptsReadable entry codec ↔ (stoul parsedApt).isSome ∧ (stoul internalApt).isSome := by
        simp [AptsReadable, hp, hi]
      rw [AptsReadable, hp, hi] at hread
      rw [hread]
      dsimp only
      cases hint : stoul internalApt with
      | none => simp
      | some internalPt =>
        cases hpar : stoul parsedApt with
        | none => simp
        | some parsedPt =>
          simp only [Option.bind_eq_bind, Option.bind_some, Option.isSome_some, and_self, iff_true]
          split_ifs
          · exact push_isSome_iff.mpr hmedia
          · rfl

/-- A retransmission codec waits for the second loops if it is one of both sides. -/
theorem mem_rtxMaps_iff {s : Negotiated × List RtpMap}
    (h : negotiateCodecs internal parsed n = some s) : entry ∈ s.2 ↔
      (∃ pt, parsed.find pt = some entry) ∧ entry.encodingName = rtx ∧
        ∃ codec ∈ internal, SameCodec codec entry := by
  rw [negotiateCodecs_eq] at h
  rw [(matchAll_spec h).2.1, List.nil_append, List.mem_map]
  constructor
  · rintro ⟨⟨codec, pt, entry⟩, hpair, rfl⟩
    rw [List.mem_filter, List.mem_product, decide_eq_true_eq] at hpair
    obtain ⟨⟨hcodec, hentry⟩, hsame, hrtx⟩ := hpair
    exact ⟨⟨pt, StdMap.mem_pairs_iff.mp hentry⟩, hrtx, codec, hcodec, hsame⟩
  · rintro ⟨⟨pt, hentry⟩, hrtx, codec, hcodec, hsame⟩
    refine ⟨(codec, pt, entry), ?_, rfl⟩
    rw [List.mem_filter, List.mem_product, decide_eq_true_eq]
    exact ⟨⟨hcodec, StdMap.mem_pairs_iff.mpr hentry⟩, hsame, hrtx⟩

theorem negotiateCodecs_isSome_iff (hsection : Sectioned parsed) :
    (negotiateCodecs internal parsed n).isSome ↔ ∀ codec ∈ internal, ∀ pt entry,
      parsed.find pt = some entry → codec.encodingName = entry.encodingName →
        codec.clockRate.isSome ∧ entry.clockRate.isSome := by
  refine foldlM_isSome_iff fun s codec _ => ?_
  refine (foldlM_isSome_iff fun s pair hpair => matchCodec_isSome_iff
    (hsection (StdMap.mem_pairs_iff.mp hpair)) s).trans ?_
  exact ⟨fun h pt entry hf => h (pt, entry) (StdMap.mem_pairs_iff.mpr hf),
    fun h pair hpair => h pair.1 pair.2 (StdMap.mem_pairs_iff.mp hpair)⟩

/-- The negotiation has a result if and only if the codecs can be compared. -/
theorem negotiate_isSome_iff (hsection : Sectioned parsed) :
    (negotiate internal parsed n).isSome ↔ Negotiable internal parsed := by
  rw [negotiate, Option.bind_eq_bind, isSome_bind_iff]
  have hsecond {s : Negotiated × List RtpMap} (hs : negotiateCodecs internal parsed n = some s)
      (hclocks : (negotiateCodecs internal parsed n).isSome) :
      (negotiateRtx internal s.2 s.1).isSome ↔ ∀ entry ∈ s.2, ∀ codec ∈ internal,
        codec.encodingName = rtx → AptsReadable entry codec := by
    refine foldlM_isSome_iff fun m entry hentry => foldlM_isSome_iff fun m codec _ =>
      matchRtx_isSome_iff ?_ m
    obtain ⟨⟨pt, hf⟩, -, codec, hcodec, hsame⟩ := (mem_rtxMaps_iff hs).mp hentry
    have hclock := (negotiateCodecs_isSome_iff hsection).mp hclocks codec hcodec pt entry hf hsame.1
    exact hsection hf hclock.2
  constructor
  · rintro ⟨s, hs, h⟩
    have hclocks := Option.isSome_of_eq_some hs
    refine ⟨(negotiateCodecs_isSome_iff hsection).mp hclocks, ?_⟩
    intro pt entry hf hrtx hsame
    exact (hsecond hs hclocks).mp h entry ((mem_rtxMaps_iff hs).mpr ⟨⟨pt, hf⟩, hrtx, hsame⟩)
  · rintro ⟨hclocks, hapts⟩
    have hfirst : (negotiateCodecs internal parsed n).isSome :=
      (negotiateCodecs_isSome_iff hsection).mpr hclocks
    obtain ⟨s, hs⟩ := Option.isSome_iff_exists.mp hfirst
    refine ⟨s, hs, (hsecond hs hfirst).mpr fun entry hentry => ?_⟩
    obtain ⟨⟨pt, hf⟩, hrtx, hsame⟩ := (mem_rtxMaps_iff hs).mp hentry
    exact hapts pt entry hf hrtx hsame

/-! ### Descriptions -/

namespace SdpInfo

variable (info : SdpInfo) (sdp media : Text)

/-- The codecs and the usernames with the ones that a text describes. -/
def codecsWith : StdMap UInt32 RtpMap :=
  applyAll info.payloadParsedMap (overText codecWrites sdp media)

def usersWith : Text × Text := (overText usersLine sdp media).foldl setUser info.users

/-- Where the first line of a text stands. -/
def position : Position :=
  ⟨mediaOf media, info.isBundle, info.bundleTags.length, info.audioSsrc⟩

/-- The lines of the text can be read, and with a username the codecs can be compared. -/
def Readable : Prop :=
  LinesReadable (info.position media) (getlines sdp) ∧
    (info.usersWith sdp media ≠ ([], []) →
      Negotiable info.internalPayloadVector (info.codecsWith sdp media))

end SdpInfo

theorem users_eq_nil_iff {info : SdpInfo} : info.users = ([], []) ↔ info.NoCredentials :=
  iff_of_eq (Prod.mk.injEq _ _ _ _)

/-- A candidate and a description are processed to the end if and only if they can be read. -/
theorem processSdp_isSome_iff (r : RemoteSdp) :
    (∀ pieces mediaType line, (processCandidate pieces mediaType line).isSome ↔
      CandidateReadable pieces) ∧
    ∀ sdp media, (r.info.processSdp sdp media).isSome ↔ r.info.Readable sdp media := by
  refine ⟨fun _ _ _ => processCandidate_isSome_iff, fun sdp media => ?_⟩
  have hlines : (readLines r.info sdp media).isSome ↔
      LinesReadable (r.info.position media) (getlines sdp) := foldlM_processLine_isSome_iff
  rw [SdpInfo.Readable, ← hlines]
  cases hloop : readLines r.info sdp media with
  | none => simp [SdpInfo.processSdp, hloop]
  | some loop =>
    have hcodecs := readLines_codecs hloop
    have husers : loop.info.users = r.info.usersWith sdp media := readLines_users hloop
    rw [processSdp_of_readLines hloop]
    simp only [Option.isSome_some, true_and]
    split_ifs with hno
    · refine iff_of_true rfl fun hne => absurd ?_ hne
      rw [← husers]
      exact users_eq_nil_iff.mpr hno
    · have hne : r.info.usersWith sdp media ≠ ([], []) := by
        rw [← husers]
        exact fun h => hno (users_eq_nil_iff.mp h)
      have hsection : Sectioned loop.info.payloadParsedMap := by
        rw [hcodecs.parsed]
        exact r.sectioned.applyAll _
      rw [Option.isSome_map, negotiate_isSome_iff hsection, hcodecs.internal, hcodecs.parsed]
      simp only [hne, ne_eq, not_false_eq_true, true_imp_iff]
      rfl

/-- A call leaves a description that further calls can be made on. -/
theorem sectioned_processSdp (r : RemoteSdp) {sdp media : Text} {info : SdpInfo} {b : Bool}
    (h : r.info.processSdp sdp media = some (info, b)) : Sectioned info.payloadParsedMap := by
  obtain ⟨loop, hloop, hcases⟩ := processSdp_cases h
  have hsection : Sectioned loop.info.payloadParsedMap := by
    rw [(readLines_codecs hloop).parsed]
    exact r.sectioned.applyAll _
  rcases hcases with ⟨-, -, rfl⟩ | ⟨-, -, negotiated, -, rfl⟩
  · exact hsection
  · obtain ⟨_, _, _, _, _, heq⟩ := fill_eq loop.info
    rw [heq]
    exact hsection

/-- A line that ends behind its marker. -/
theorem not_processSdp_isSome : ¬ ∀ (internal : List RtpMap) (sdp media : Text),
    ((SdpInfo.new internal).processSdp sdp media).isSome := by
  intro h
  have hsetup := h [] "a=setup:".toList []
  revert hsetup
  decide

end KkLicode.Sdp
