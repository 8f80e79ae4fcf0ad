import KkLicode.Sdp.RecoveredTexts
import Mathlib.Data.Finset.Max

/-! When the round trip succeeds. Every feedback type, parameter and extension loses its
last character on the way, since the reader takes it for the end of the line, which is
not there; so a description that makes the round trip has none of them. Without them the
round trip depends on the texts that are split, and on the internal codecs. -/

namespace KkLicode.Sdp

open Base CodecWrite

variable {internal codecs : List RtpMap} {parsed : StdMap UInt32 RtpMap} {entry codec : RtpMap}
  {info info' : SdpInfo} {n : Negotiated} {msidtemp media : Text}

/-- What is printed was written, and the loops over it end. -/
structure SdpInfo.Written (info : SdpInfo) : Prop extends Sound info where
  sections : info.hasAudio ∨ info.hasVideo
  clockRates : ∀ codec ∈ info.printedCodecs, codec.clockRate.isSome
  channels : ∀ codec ∈ info.printedCodecs, codec.mediaType = some .audio → codec.channels.isSome

/-- The names and the credentials are read in one piece. -/
structure SdpInfo.Separable (info : SdpInfo) : Prop where
  names : ∀ codec ∈ info.printedCodecs, codec.encodingName.Avoids " :/\n".toList
  audio : info.hasAudio → info.iceAudioUsername.IsCredential ∧ info.iceAudioPassword.IsCredential
  video : info.hasVideo → info.iceVideoUsername.IsCredential ∧ info.iceVideoPassword.IsCredential

/-- There is nothing that loses its last character. -/
structure SdpInfo.Untrimmed (info : SdpInfo) : Prop where
  feedback : ∀ codec ∈ info.printedCodecs, codec.feedbackTypes = []
  parameters : ∀ codec ∈ info.printedCodecs, codec.formatParameters.pairs = []
  extensions : info.printedExtensions = []

/-- The codecs can be told by their payload types, and the internal codecs agree with
each as often as it is printed. -/
structure SdpInfo.Recoverable (info : SdpInfo) : Prop where
  internal : ∀ codec ∈ info.internalPayloadVector, ∀ codec' ∈ info.printedCodecs,
    codec.encodingName = codec'.encodingName → codec.clockRate.isSome
  names : ∀ codec ∈ info.printedCodecs, codec.encodingName ≠ rtx
  payloadTypes : ∀ codec ∈ info.printedCodecs, ∀ codec' ∈ info.printedCodecs,
    codec'.payloadType = codec.payloadType → SameCodec codec' codec
  counts : ∀ codec ∈ info.printedCodecs,
    info.printedCodecs.countP (·.payloadType = codec.payloadType) =
      info.internalPayloadVector.countP (SameCodec · codec)

/-! ### Codecs without feedback and parameters -/

def codecKey (codec : RtpMap) : UInt32 × Text × Option UInt32 :=
  (codec.payloadType, codec.encodingName, codec.clockRate)

/-- What is compared of a codec without feedback and parameters. -/
def bare (key : UInt32 × Text × Option UInt32) :
    UInt32 × Text × Option UInt32 × List Text × StdMap Text Text :=
  (key.1, key.2.1, key.2.2, [], .empty)

theorem bare_injective : Function.Injective bare := by
  rintro ⟨pt, name, clock⟩ ⟨pt', name', clock'⟩ h
  simp only [bare, Prod.mk.injEq] at h
  simp [h]

theorem described_eq_bare (hf : codec.feedbackTypes = []) (hp : codec.formatParameters.pairs = []) :
    codec.described = bare (codecKey codec) := by
  rw [RtpMap.described, hf, StdMap.eq_empty hp]
  rfl

/-- What is agreed on with a codec without feedback and parameters has none. -/
theorem described_negotiateMap (codec : RtpMap) (hf : entry.feedbackTypes = [])
    (hp : entry.formatParameters.pairs = []) :
    (negotiateMap codec entry).described = bare (codecKey entry) := by
  refine described_eq_bare ?_ ?_
  · simp [negotiateMap, commonFeedback, hf]
  · refine List.eq_nil_iff_forall_not_mem.mpr fun parameter hmem => ?_
    have hfind := (find_commonParameters.mp (StdMap.mem_pairs_iff.mp hmem)).2
    rw [StdMap.eq_empty hp] at hfind
    cases hfind

theorem mediaPairs_cons : mediaPairs (codec :: internal) parsed =
    ((parsed.pairs.map (Prod.mk codec)).filter fun pair =>
      SameCodec pair.1 pair.2.2 ∧ pair.2.2.encodingName ≠ rtx) ++ mediaPairs internal parsed := by
  rw [mediaPairs, List.product_cons, List.filter_append]
  rfl

/-- An entry is agreed on once for every internal codec with its name and clock rate. -/
theorem count_mediaPairs (hkey : Keyed parsed) (h : parsed.find entry.payloadType = some entry)
    (hne : entry.encodingName ≠ rtx) :
    ((mediaPairs internal parsed).map fun pair => codecKey pair.2.2).count (codecKey entry) =
      internal.countP (SameCodec · entry) := by
  induction internal with
  | nil => rfl
  | cons codec internal ih =>
    have hone : parsed.pairs.countP (fun x => x.1 = entry.payloadType && SameCodec codec x.2) =
        if SameCodec codec entry then 1 else 0 := by
      simpa using StdMap.countP_key h (SameCodec codec ·)
    rw [mediaPairs_cons, List.map_append, List.count_append, ih, List.countP_cons, Nat.add_comm,
      List.count, List.countP_map, List.countP_filter, List.countP_map]
    simp only [decide_eq_true_eq]
    rw [← hone]
    congr 1
    refine List.countP_congr fun x hx => ?_
    have hfind := StdMap.mem_pairs_iff.mp hx
    simp only [Function.comp_apply, Bool.and_eq_true, beq_iff_eq, decide_eq_true_eq]
    constructor
    · rintro ⟨hk, hsame, -⟩
      exact ⟨(hkey hfind).symm.trans (congrArg Prod.fst hk), hsame⟩
    · rintro ⟨hpt, hsame⟩
      rw [hpt, h] at hfind
      rw [← Option.some.inj hfind] at hsame ⊢
      exact ⟨rfl, hsame, hne⟩

/-! ### What the reader makes of the text -/

/-- What is read of the extensions. -/
def SdpInfo.readExtensions (info : SdpInfo) : List ExtMap :=
  (if info.hasAudio then trimmed .audio (info.sectionExtensions .audio) else []) ++
    if info.hasVideo then trimmed .video (info.sectionExtensions .video) else []

theorem SdpInfo.readSections_eq (info : SdpInfo) (r : Reading) : info.readSections r =
    { r with
      mtype := if info.hasVideo then .video else if info.hasAudio then .audio else r.mtype
      parsed := applyAll r.parsed info.allWrites
      extensions := r.extensions ++ info.readExtensions
      videoUsername := if info.hasVideo then info.iceVideoUsername else r.videoUsername
      videoPassword := if info.hasVideo then info.iceVideoPassword else r.videoPassword
      videoDirection := if info.hasVideo then info.videoDirection else r.videoDirection
      audioUsername := if info.hasAudio then info.iceAudioUsername else r.audioUsername
      audioPassword := if info.hasAudio then info.iceAudioPassword else r.audioPassword
      audioDirection := if info.hasAudio then info.audioDirection else r.audioDirection } := by
  rw [readSections, allWrites, readExtensions]
  cases info.hasAudio <;> cases info.hasVideo <;>
    simp [readAudio, readVideo, applyAll_append]

/-- The description that the lines of another one leave. -/
structure SdpInfo.ReadFrom (read info : SdpInfo) : Prop where
  internal : read.internalPayloadVector = info.internalPayloadVector
  negotiated : read.toNegotiated = {}
  parsed : read.payloadParsedMap = info.printedMap
  extensions : read.extMapVector = info.readExtensions
  audio : info.hasAudio → read.iceAudioUsername = info.iceAudioUsername ∧
    read.iceAudioPassword = info.iceAudioPassword ∧ read.audioDirection = info.audioDirection
  video : info.hasVideo → read.iceVideoUsername = info.iceVideoUsername ∧
    read.iceVideoPassword = info.iceVideoPassword ∧ read.videoDirection = info.videoDirection
  users : info.hasAudio = false → info.hasVideo = false → read.NoCredentials

theorem SdpInfo.ReadFrom.of_reading {loop : Loop} {mtype : MediaType}
    (h : loop.reading = info.readSections
      (Loop.mk (SdpInfo.new info.internalPayloadVector) (-1) mtype).reading) :
    loop.info.ReadFrom info := by
  rw [SdpInfo.readSections_eq] at h
  simp only [Loop.reading, Reading.mk.injEq] at h
  obtain ⟨-, hn, hinternal, hparsed, hext, hvu, hau, hvp, hap, hvd, had⟩ := h
  exact {
    internal := hinternal
    negotiated := hn
    parsed := hparsed
    extensions := hext.trans (List.nil_append _)
    audio := fun ha => by simp [hau, hap, had, ha]
    video := fun hv => by simp [hvu, hvp, hvd, hv]
    users := fun ha hv => by simp [SdpInfo.NoCredentials, hvu, hau, ha, hv, SdpInfo.new] }

/-- A description keeps the credentials that another one has, and its other members. -/
structure SdpInfo.Keeps (filled info : SdpInfo) : Prop where
  extensions : filled.extMapVector = info.extMapVector
  audioDirection : filled.audioDirection = info.audioDirection
  videoDirection : filled.videoDirection = info.videoDirection
  audio : info.iceAudioUsername ≠ [] → filled.iceAudioUsername = info.iceAudioUsername ∧
    filled.iceAudioPassword = info.iceAudioPassword
  video : info.iceVideoUsername ≠ [] → filled.iceVideoUsername = info.iceVideoUsername ∧
    filled.iceVideoPassword = info.iceVideoPassword

theorem SdpInfo.keeps_fillCredentials (info : SdpInfo) : info.fillCredentials.Keeps info := by
  rw [fillCredentials]
  split_ifs with hvideo haudio
  · exact ⟨rfl, rfl, rfl, fun _ => ⟨rfl, rfl⟩, fun h => absurd hvideo h⟩
  · exact ⟨rfl, rfl, rfl, fun h => absurd haudio h, fun _ => ⟨rfl, rfl⟩⟩
  · exact ⟨rfl, rfl, rfl, fun _ => ⟨rfl, rfl⟩, fun _ => ⟨rfl, rfl⟩⟩

theorem SdpInfo.keeps_fill (info : SdpInfo) :
    info.fillCredentials.fillCandidates.fillSsrcList.Keeps info := by
  obtain ⟨hext, had, hvd, haudio, hvideo⟩ := info.keeps_fillCredentials
  rw [fillSsrcList]
  split_ifs <;> exact ⟨hext, had, hvd, haudio, hvideo⟩

/-- Once filled, what was read describes the sections up to the codecs and the extensions. -/
theorem sameSections_iff {read : SdpInfo} (h : read.ReadFrom info) (hp : info.Printable)
    (n : Negotiated) :
    SameSections info { read.fillCredentials.fillCandidates.fillSsrcList with toNegotiated := n } ↔
      (n.payloadVector.map RtpMap.described).Perm (info.printedCodecs.map RtpMap.described) ∧
        info.readExtensions.Perm info.printedExtensions := by
  have hkeeps := read.keeps_fill
  have hext := hkeeps.extensions.trans h.extensions
  constructor
  · intro hsame
    exact ⟨hsame.codecs, hext ▸ hsame.extensions⟩
  · rintro ⟨hcodecs, hperm⟩
    refine ⟨hcodecs, hext ▸ hperm, fun ha => ?_, fun hv => ?_⟩
    · obtain ⟨huser, hpassword, hdirection⟩ := h.audio ha
      have hkeep := hkeeps.audio (huser ▸ (hp.audio ha).1.1)
      exact ⟨hkeep.1.trans huser, hkeep.2.trans hpassword, hkeeps.audioDirection.trans hdirection⟩
    · obtain ⟨huser, hpassword, hdirection⟩ := h.video hv
      have hkeep := hkeeps.video (huser ▸ (hp.video hv).1.1)
      exact ⟨hkeep.1.trans huser, hkeep.2.trans hpassword, hkeeps.videoDirection.trans hdirection⟩

/-- The round trip is the one of the codecs and the extensions. -/
theorem roundTrips_iff_negotiated (hm : info.Made internal) (hu : info.Unmixed) (h : info.Printable)
    (hlabel : msidtemp.Bare) :
    info.RoundTrips msidtemp media ↔ (info.hasAudio ∨ info.hasVideo) ∧
      info.readExtensions.Perm info.printedExtensions ∧
        ∃ n, negotiate internal info.printedMap {} = some n ∧
          (n.payloadVector.map RtpMap.described).Perm (info.printedCodecs.map RtpMap.described) := by
  obtain ⟨printed, text, loop, hget, hlines, hr⟩ := readLines_getSdp hm hu h hlabel media
  rw [← hm.internal] at hlines hr ⊢
  have hread := SdpInfo.ReadFrom.of_reading hr
  have hno : loop.info.NoCredentials ↔ ¬ (info.hasAudio ∨ info.hasVideo) := by
    constructor
    · rintro ⟨hvideo, haudio⟩ (ha | hv)
      · exact (h.audio ha).1.1 ((hread.audio ha).1.symm.trans haudio)
      · exact (h.video hv).1.1 ((hread.video hv).1.symm.trans hvideo)
    · intro hnone
      rw [not_or, Bool.not_eq_true, Bool.not_eq_true] at hnone
      exact hread.users hnone.1 hnone.2
  have hprocess := processSdp_of_readLines hlines
  rw [hread.internal, hread.parsed, hread.negotiated] at hprocess
  constructor
  · rintro ⟨_, _, info', hget', hprocess', hsame⟩
    rw [hget] at hget'
    obtain ⟨-, rfl⟩ := Prod.mk.inj (Option.some.inj hget')
    rw [hprocess] at hprocess'
    split_ifs at hprocess' with hnone
    · cases hprocess'
    obtain ⟨n, hn, heq⟩ := Option.map_eq_some_iff.mp hprocess'
    obtain ⟨rfl, -⟩ := Prod.mk.inj heq
    obtain ⟨hcodecs, hperm⟩ := (sameSections_iff hread h n).mp hsame
    exact ⟨not_not.mp (mt hno.mpr hnone), hperm, n, hn, hcodecs⟩
  · rintro ⟨hsection, hperm, n, hn, hcodecs⟩
    refine ⟨printed, text, _, hget, ?_, (sameSections_iff hread h n).mpr ⟨hcodecs, hperm⟩⟩
    rw [hprocess, if_neg fun hnone => hno.mp hnone hsection, hn]
    rfl

/-! ### The last characters -/

/-- There is no list of texts in which a longer one follows every text. -/
theorem eq_nil_of_longer {texts : List Text}
    (h : ∀ t ∈ texts, ∃ u ∈ texts, t.length < u.length) : texts = [] := by
  by_contra hnil
  obtain ⟨t, ht⟩ := List.exists_mem_of_ne_nil texts hnil
  obtain ⟨longest, hmem, hmax⟩ := texts.toFinset.exists_max_image List.length
    ⟨t, List.mem_toFinset.mpr ht⟩
  obtain ⟨u, hu, hlt⟩ := h longest (List.mem_toFinset.mp hmem)
  have hle := hmax u (List.mem_toFinset.mpr hu)
  omega

theorem length_dropLast_lt {t : Text} (h : t ≠ []) : t.dropLast.length < t.length := by
  have hpos := List.length_pos_of_ne_nil h
  rw [List.length_dropLast]
  omega

theorem uri_of_mem_readExtensions {extension : ExtMap} (h : extension ∈ info.readExtensions) :
    ∃ e ∈ info.printedExtensions, extension.uri = e.uri.dropLast := by
  rw [SdpInfo.readExtensions, List.mem_append] at h
  simp only [SdpInfo.printedExtensions, List.mem_append]
  rcases h with h | h
  · split_ifs at h with ha
    · obtain ⟨e, he, rfl⟩ := List.mem_map.mp h
      exact ⟨e, .inl (by rwa [if_pos ha]), rfl⟩
    · cases h
  · split_ifs at h with hv
    · obtain ⟨e, he, rfl⟩ := List.mem_map.mp h
      exact ⟨e, .inr (by rwa [if_pos hv]), rfl⟩
    · cases h

/-- Extensions are never read as they were printed. -/
theorem readExtensions_perm_iff (h : info.Printable) :
    info.readExtensions.Perm info.printedExtensions ↔ info.printedExtensions = [] := by
  constructor
  · intro hperm
    refine List.map_eq_nil_iff.mp (@eq_nil_of_longer (info.printedExtensions.map ExtMap.uri) ?_)
    refine List.forall_mem_map.mpr fun e he => ?_
    obtain ⟨e', he', heq⟩ := uri_of_mem_readExtensions (hperm.mem_iff.mpr he)
    exact ⟨e'.uri, List.mem_map_of_mem he', heq ▸ length_dropLast_lt (h.extensions e' he').ne_nil⟩
  · intro hnil
    have hread : info.readExtensions = [] := List.eq_nil_iff_forall_not_mem.mpr fun e he => by
      obtain ⟨e', he', -⟩ := uri_of_mem_readExtensions he
      simp [hnil] at he'
    rw [hread, hnil]

/-- A codec that is described by what is agreed on has a feedback type or a parameter only if
a printed one has a longer one. -/
theorem untrimmed_of_perm (h : info.Printable) (hn : negotiate internal info.printedMap {} = some n)
    (hperm : (n.payloadVector.map RtpMap.described).Perm (info.printedCodecs.map RtpMap.described)) :
    (∀ codec ∈ info.printedCodecs, codec.feedbackTypes = []) ∧
      ∀ codec ∈ info.printedCodecs, codec.formatParameters.pairs = [] := by
  have hagreed (codec) (hc : codec ∈ info.printedCodecs) : ∃ codec' entry,
      codec'.described = codec.described ∧ Within info.printedMap codec' entry := by
    obtain ⟨codec', hc', heq⟩ := List.mem_map.mp (hperm.mem_iff.mpr (List.mem_map_of_mem hc))
    obtain ⟨entry, hwithin⟩ := negotiate_within (keyed_printedMap info) hn codec' hc'
    exact ⟨codec', entry, heq, hwithin⟩
  have hfeedback : info.printedCodecs.flatMap (·.feedbackTypes) = [] := by
    refine eq_nil_of_longer fun t ht => ?_
    obtain ⟨codec, hc, ht⟩ := List.mem_flatMap.mp ht
    obtain ⟨codec', entry, heq, hwithin⟩ := hagreed codec hc
    simp only [RtpMap.described, Prod.mk.injEq] at heq
    obtain ⟨c, hc', u, hu, hdrop⟩ :=
      feedback_printedMap hwithin.found (hwithin.feedback t (heq.2.2.2.1 ▸ ht))
    exact ⟨u, List.mem_flatMap.mpr ⟨c, hc', hu⟩,
      hdrop ▸ length_dropLast_lt ((h.codecs c hc').feedback u hu).ne_nil⟩
  have hparameters : info.printedCodecs.flatMap (·.formatParameters.pairs.map parameterText) = [] := by
    refine eq_nil_of_longer fun t ht => ?_
    obtain ⟨codec, hc, ht⟩ := List.mem_flatMap.mp ht
    obtain ⟨⟨option, value⟩, hp, rfl⟩ := List.mem_map.mp ht
    obtain ⟨codec', entry, heq, hwithin⟩ := hagreed codec hc
    simp only [RtpMap.described, Prod.mk.injEq] at heq
    rw [← heq.2.2.2.2] at hp
    obtain ⟨c, hc', parameter, hp', hlt⟩ := parameter_printedMap hwithin.found
      (hwithin.parameters option value (StdMap.mem_pairs_iff.mp hp))
    exact ⟨parameterText parameter, List.mem_flatMap.mpr ⟨c, hc', List.mem_map_of_mem hp'⟩, hlt⟩
  exact ⟨List.flatMap_eq_nil_iff.mp hfeedback, fun codec hc =>
    List.map_eq_nil_iff.mp (List.flatMap_eq_nil_iff.mp hparameters codec hc)⟩

/-! ### The codecs that are agreed on again -/

theorem codecKey_eq_iff {codec' : RtpMap} : codecKey codec = codecKey codec' ↔
    codec.payloadType = codec'.payloadType ∧ SameCodec codec codec' := by
  simp [codecKey, SameCodec]

/-- A pair that is agreed on comes from an entry of the map. -/
theorem find_of_mem_mediaPairs {pair : RtpMap × UInt32 × RtpMap} (hkey : Keyed parsed)
    (h : pair ∈ mediaPairs internal parsed) :
    parsed.find pair.2.2.payloadType = some pair.2.2 ∧ pair.2.2.encodingName ≠ rtx := by
  obtain ⟨hmem, hpair⟩ := List.mem_filter.mp h
  have hfind := StdMap.mem_pairs_iff.mp (List.mem_product.mp hmem).2
  exact ⟨by rwa [hkey hfind], (of_decide_eq_true hpair).2⟩

/-- The keys of the codecs that are agreed on when the text is read. -/
def SdpInfo.readKeys (info : SdpInfo) : List (UInt32 × Text × Option UInt32) :=
  (mediaPairs info.internalPayloadVector info.printedMap).map fun pair => codecKey pair.2.2

/-- Every key comes from a codec that was printed. -/
theorem exists_of_mem_readKeys (hclock : ∀ codec ∈ info.printedCodecs, codec.clockRate.isSome)
    {key : UInt32 × Text × Option UInt32} (h : key ∈ info.readKeys) :
    ∃ codec ∈ info.printedCodecs, codecKey codec = key := by
  obtain ⟨pair, hpair, rfl⟩ := List.mem_map.mp h
  obtain ⟨hfind, -⟩ := find_of_mem_mediaPairs (keyed_printedMap info) hpair
  obtain ⟨codec, hc, hpt, hsame⟩ := exists_printed hclock hfind
  exact ⟨codec, hc, codecKey_eq_iff.mpr ⟨hpt, hsame⟩⟩

/-- Two codecs with a payload type and keys among the ones read have equal keys. -/
theorem sameCodec_of_mem_readKeys {codec' : RtpMap} (h : codecKey codec ∈ info.readKeys)
    (h' : codecKey codec' ∈ info.readKeys) (hpt : codec'.payloadType = codec.payloadType) :
    SameCodec codec' codec := by
  obtain ⟨pair, hpair, heq⟩ := List.mem_map.mp h
  obtain ⟨pair', hpair', heq'⟩ := List.mem_map.mp h'
  obtain ⟨hfind, -⟩ := find_of_mem_mediaPairs (keyed_printedMap info) hpair
  obtain ⟨hfind', -⟩ := find_of_mem_mediaPairs (keyed_printedMap info) hpair'
  obtain ⟨hpt₁, hname, hclock⟩ := codecKey_eq_iff.mp heq
  obtain ⟨hpt₂, hname', hclock'⟩ := codecKey_eq_iff.mp heq'
  rw [hpt₁, ← hpt, ← hpt₂, hfind'] at hfind
  rw [← Option.some.inj hfind] at hname hclock
  exact ⟨hname'.symm.trans hname, hclock'.symm.trans hclock⟩

theorem count_printedCodecs (hpt : ∀ codec' ∈ info.printedCodecs,
    codec'.payloadType = codec.payloadType → SameCodec codec' codec) :
    (info.printedCodecs.map codecKey).count (codecKey codec) =
      info.printedCodecs.countP (·.payloadType = codec.payloadType) := by
  rw [List.count, List.countP_map]
  refine List.countP_congr fun codec' hc' => ?_
  simp only [Function.comp_apply, beq_iff_eq, decide_eq_true_eq, codecKey_eq_iff]
  exact ⟨And.left, fun h => ⟨h, hpt codec' hc' h⟩⟩

/-- What is read for the key of an entry. -/
theorem count_readKeys (h : info.printedMap.find entry.payloadType = some entry)
    (hkey : codecKey entry = codecKey codec) (hne : codec.encodingName ≠ rtx) :
    info.readKeys.count (codecKey codec) =
      info.internalPayloadVector.countP (SameCodec · codec) := by
  obtain ⟨-, hname, hclock⟩ := codecKey_eq_iff.mp hkey
  have hcount := @count_mediaPairs info.internalPayloadVector _ _ (keyed_printedMap info) h
    (hname ▸ hne)
  rw [hkey] at hcount
  rw [SdpInfo.readKeys, hcount]
  refine List.countP_congr fun codec' _ => ?_
  rw [decide_eq_true_eq, decide_eq_true_eq, SameCodec, SameCodec, hname, hclock]

/-- The map has an entry for a printed codec, with its key if payload types tell the codecs. -/
theorem exists_entry (hclock : ∀ codec ∈ info.printedCodecs, codec.clockRate.isSome)
    (hc : codec ∈ info.printedCodecs) (hpt : ∀ codec' ∈ info.printedCodecs,
      codec'.payloadType = codec.payloadType → SameCodec codec' codec) : ∃ entry,
        info.printedMap.find entry.payloadType = some entry ∧ codecKey entry = codecKey codec := by
  obtain ⟨entry, hfind⟩ := Option.isSome_iff_exists.mp (find_printedMap hc)
  obtain ⟨codec', hc', hpt', hsame⟩ := exists_printed hclock hfind
  have hkey := keyed_printedMap info hfind
  refine ⟨entry, by rwa [hkey], codecKey_eq_iff.mpr ⟨hkey, ?_⟩⟩
  obtain ⟨hname, hclock⟩ := hpt codec' hc' hpt'
  exact ⟨hsame.1.symm.trans hname, hsame.2.symm.trans hclock⟩

theorem readKeys_perm_iff (hclock : ∀ codec ∈ info.printedCodecs, codec.clockRate.isSome) :
    info.readKeys.Perm (info.printedCodecs.map codecKey) ↔
      (∀ codec ∈ info.printedCodecs, codec.encodingName ≠ rtx) ∧
        (∀ codec ∈ info.printedCodecs, ∀ codec' ∈ info.printedCodecs,
          codec'.payloadType = codec.payloadType → SameCodec codec' codec) ∧
          ∀ codec ∈ info.printedCodecs,
            info.printedCodecs.countP (·.payloadType = codec.payloadType) =
              info.internalPayloadVector.countP (SameCodec · codec) := by
  constructor
  · intro hperm
    have hmem (codec) (hc : codec ∈ info.printedCodecs) : codecKey codec ∈ info.readKeys :=
      hperm.mem_iff.mpr (List.mem_map_of_mem hc)
    have hpt : ∀ codec ∈ info.printedCodecs, ∀ codec' ∈ info.printedCodecs,
        codec'.payloadType = codec.payloadType → SameCodec codec' codec :=
      fun codec hc codec' hc' => sameCodec_of_mem_readKeys (hmem codec hc) (hmem codec' hc')
    have hname (codec) (hc : codec ∈ info.printedCodecs) : codec.encodingName ≠ rtx := by
      obtain ⟨pair, hpair, heq⟩ := List.mem_map.mp (hmem codec hc)
      rw [← (codecKey_eq_iff.mp heq).2.1]
      exact (find_of_mem_mediaPairs (keyed_printedMap info) hpair).2
    refine ⟨hname, hpt, fun codec hc => ?_⟩
    obtain ⟨entry, hfind, hkey⟩ := exists_entry hclock hc (hpt codec hc)
    rw [← count_printedCodecs (hpt codec hc), ← count_readKeys hfind hkey (hname codec hc),
      hperm.count_eq]
  · rintro ⟨hname, hpt, hcount⟩
    refine List.perm_iff_count.mpr fun key => ?_
    by_cases hkey : ∃ codec ∈ info.printedCodecs, codecKey codec = key
    · obtain ⟨codec, hc, rfl⟩ := hkey
      obtain ⟨entry, hfind, hkey⟩ := exists_entry hclock hc (hpt codec hc)
      rw [count_printedCodecs (hpt codec hc), count_readKeys hfind hkey (hname codec hc),
        hcount codec hc]
    · rw [List.count_eq_zero_of_not_mem fun h => hkey (exists_of_mem_readKeys hclock h),
        List.count_eq_zero_of_not_mem fun h => hkey (List.mem_map.mp h)]

/-! ### The round trip -/

/-- Without feedback and parameters in the text there are none in the map. -/
theorem feedback_eq_nil (h : ∀ codec ∈ info.printedCodecs, codec.feedbackTypes = [])
    {pt : UInt32} (hfind : info.printedMap.find pt = some entry) : entry.feedbackTypes = [] :=
  List.eq_nil_iff_forall_not_mem.mpr fun _ ht => by
    obtain ⟨codec, hc, type, htype, -⟩ := feedback_printedMap hfind ht
    simp [h codec hc] at htype

theorem parameters_eq_nil (h : ∀ codec ∈ info.printedCodecs, codec.formatParameters.pairs = [])
    {pt : UInt32} (hfind : info.printedMap.find pt = some entry) : entry.formatParameters.pairs = [] :=
  List.eq_nil_iff_forall_not_mem.mpr fun _ hp => by
    obtain ⟨codec, hc, parameter, hparameter, -⟩ :=
      parameter_printedMap hfind (StdMap.mem_pairs_iff.mp hp)
    simp [h codec hc] at hparameter

/-- Without feedback and parameters the codecs are compared by their keys. -/
theorem described_perm_iff (hf : ∀ codec ∈ info.printedCodecs, codec.feedbackTypes = [])
    (hp : ∀ codec ∈ info.printedCodecs, codec.formatParameters.pairs = [])
    (hn : negotiate info.internalPayloadVector info.printedMap {} = some n) :
    (n.payloadVector.map RtpMap.described).Perm (info.printedCodecs.map RtpMap.described) ↔
      info.readKeys.Perm (info.printedCodecs.map codecKey) := by
  have hread : n.payloadVector.map RtpMap.described = info.readKeys.map bare := by
    have hno (pt entry) (hfind : info.printedMap.find pt = some entry) :
        entry.formatParameters.find kAssociatedPt = none := by
      rw [StdMap.eq_empty (parameters_eq_nil hp hfind), StdMap.find_empty]
    rw [negotiate_mediaPairs hno hn, SdpInfo.readKeys, List.map_map, List.map_map]
    refine List.map_congr_left fun pair hpair => ?_
    obtain ⟨hfind, -⟩ := find_of_mem_mediaPairs (keyed_printedMap info) hpair
    exact described_negotiateMap pair.1 (feedback_eq_nil hf hfind) (parameters_eq_nil hp hfind)
  have hprinted : info.printedCodecs.map RtpMap.described =
      (info.printedCodecs.map codecKey).map bare := by
    rw [List.map_map]
    exact List.map_congr_left fun codec hc => described_eq_bare (hf codec hc) (hp codec hc)
  rw [hread, hprinted, List.map_perm_map_iff bare_injective]

/-- Without feedback, parameters and extensions nothing else is cut short. -/
theorem SdpInfo.Untrimmed.printable (h : info.Untrimmed) (hw : info.Written) (hs : info.Separable) :
    info.Printable where
  bundle _ := hw.tagCount
  sound _ := hw.toSound
  codecs codec hc :=
    { name := hs.names codec hc
      clockRate := hw.clockRates codec hc
      channels := hw.channels codec hc
      feedback := fun _ ht => by simp [h.feedback codec hc] at ht
      parameters := fun _ hp => by simp [h.parameters codec hc] at hp }
  extensions _ he := by simp [h.extensions] at he
  audio := hs.audio
  video := hs.video

theorem bare_genRandom (rands : List ℕ) : (genRandom rands).Bare := by
  intro c hc
  obtain ⟨rand, -, rfl⟩ := List.mem_map.mp hc
  have hall : alphanum.all (fun c => c ∉ ['=', '\n']) = true := by decide
  exact of_decide_eq_true (List.all_eq_true.mp hall _ (List.get_mem _ _))

/-- The offer of two codecs, the one of video with a name and some feedback. -/
def sampleOffer (encodingName : Text) (feedbackTypes : List Text) : LocalSdp where
  internalPayloadVector := [
    { payloadType := 100
      encodingName
      clockRate := some 90000
      mediaType := some .video
      feedbackTypes },
    { payloadType := 111
      encodingName := "opus".toList
      clockRate := some 48000
      mediaType := some .audio
      channels := some 2 }]
  origin := .createOfferSdp true true true
  extMap := []
  credentials := [("user".toList, "password".toList, .other)]

/-- A video offer whose username has the marker of a feedback line. -/
def strayOffer : LocalSdp := { sampleOffer "VP8".toList ["nacka=rtcp-fb".toList] with
  origin := .createOfferSdp true false true
  credentials := [("100 nacka=rtcp-fb:".toList, "password".toList, .other)] }

-- the handler of feedback takes the line of the username, too, and brings the type back
example : (do
    let (_, text) ← strayOffer.info.getSdp (genRandom (List.range 10))
    let (info, result) ← (SdpInfo.new strayOffer.internalPayloadVector).processSdp text []
    return (result, info.payloadVector.map (·.feedbackTypes), info.iceVideoUsername)) =
      some (true, [["nacka=rtcp-fb".toList]], "100 nacka=rtcp-fb:".toList) := by
  decide +kernel

end KkLicode.Sdp
