import KkLicode.Sdp.PrintedLines

/-! What is read from the sections that `getSdp` prints for a local description, which
has no candidates, keys or fingerprint yet. -/

namespace KkLicode.Sdp

open Base CodecWrite

variable {codec : RtpMap} {codecs : List RtpMap} {mtype : MediaType} {info : SdpInfo}
  {msidtemp : Text}

/-- A codec that is printed and read: the members that are printed were written, and its
texts have no line ends and are read by the handlers of their lines. -/
structure RtpMap.Plain (codec : RtpMap) : Prop where
  name : codec.encodingName.Avoids " :/\n".toList
  clockRate : codec.clockRate.isSome
  channels : codec.mediaType = some .audio → codec.channels.isSome
  feedback : ∀ type ∈ codec.feedbackTypes, type.EndsLine
  parameters : ∀ parameter ∈ codec.formatParameters.pairs, '\n' ∉ parameterText parameter ∧
    (parameterWrites (SdpInfo.parameterLine codec.payloadType parameter)).isSome

/-- No text of the codec has a marker, the one of its own line apart. -/
structure RtpMap.Unmixed (codec : RtpMap) : Prop where
  name : codec.encodingName.ClearBut (some .rtpmap)
  feedback : ∀ type ∈ codec.feedbackTypes, type.ClearBut (some .rtcpfb)
  parameters : ∀ parameter ∈ codec.formatParameters.pairs,
    (parameterText parameter).ClearBut (some .fmtp)

instance (codec : RtpMap) : Decidable codec.Unmixed :=
  decidable_of_iff (codec.encodingName.ClearBut (some .rtpmap) ∧
      (∀ type ∈ codec.feedbackTypes, type.ClearBut (some .rtcpfb)) ∧
        ∀ parameter ∈ codec.formatParameters.pairs, (parameterText parameter).ClearBut (some .fmtp))
    ⟨fun ⟨h1, h2, h3⟩ => ⟨h1, h2, h3⟩, fun ⟨h1, h2, h3⟩ => ⟨h1, h2, h3⟩⟩

/-- What the line of a parameter writes. -/
def fmtpWrites (pt : UInt32) (parameter : Text × Text) : List CodecWrite :=
  (parameterWrites (SdpInfo.parameterLine pt parameter)).getD []

/-- What the lines of a codec write. -/
def printedWrites (mtype : MediaType) (codec : RtpMap) : List CodecWrite :=
  .rtpmap codec.payloadType codec.encodingName (codec.clockRate.getD 0) mtype ::
    (codec.feedbackTypes.map (fun type => .feedback codec.payloadType type.dropLast) ++
      codec.formatParameters.pairs.flatMap (fmtpWrites codec.payloadType))

def Reading.write (r : Reading) (ws : List CodecWrite) : Reading :=
  { r with parsed := applyAll r.parsed ws }

theorem Reading.write_append (r : Reading) (ws ws' : List CodecWrite) :
    r.write (ws ++ ws') = (r.write ws).write ws' := by
  rw [write, applyAll_append]
  rfl

/-- Lines that are printed for the elements of a list make the writes of each. -/
theorem reads_writes {α : Type*} {l : List α} {print : α → Text} {writes : α → List CodecWrite}
    (h : ∀ a ∈ l, Reads [print a] fun r => r.write (writes a)) :
    Reads (l.map print) fun r => r.write (l.flatMap writes) := by
  induction l with
  | nil => exact .nil
  | cons a l ih =>
    obtain ⟨ha, hl⟩ := List.forall_mem_cons.mp h
    refine (ha.append (ih hl)).of_eq (funext fun r => ?_)
    rw [List.flatMap_cons, Reading.write_append]

/-- The lines of a codec. -/
theorem reads_codec (h : codec.Plain) (hu : codec.Unmixed) {channels : Text}
    (hc : ShowsChannels channels) :
    Reads (SdpInfo.rtpmapLine codec (codec.clockRate.getD 0) channels :: SdpInfo.attributeLines codec)
      fun r => r.write (printedWrites r.mtype codec) := by
  have hrtpmap : Reads [SdpInfo.rtpmapLine codec (codec.clockRate.getD 0) channels] fun r =>
      r.write [.rtpmap codec.payloadType codec.encodingName (codec.clockRate.getD 0) r.mtype] :=
    reads_rtpmapLine h.name hu.name hc
  have hfeedback := reads_writes fun type ht =>
    (show Reads [SdpInfo.feedbackLine codec.payloadType type] fun r =>
      r.write [.feedback codec.payloadType type.dropLast] from
        reads_feedbackLine (h.feedback type ht) (hu.feedback type ht))
  have hparameters := @reads_writes _ codec.formatParameters.pairs
    (SdpInfo.parameterLine codec.payloadType) (fmtpWrites codec.payloadType) fun parameter hp => by
      obtain ⟨hend, hdefined⟩ := h.parameters parameter hp
      obtain ⟨ws, hws⟩ := Option.isSome_iff_exists.mp hdefined
      rw [fmtpWrites, hws]
      exact reads_parameterLine (hu.parameters parameter hp) hend hws
  refine (hrtpmap.append (hfeedback.append hparameters)).of_eq (funext fun r => ?_)
  rw [← Reading.write_append, ← Reading.write_append]
  simp [printedWrites, List.map_eq_flatMap]

/-- The lines of all codecs of a section. -/
theorem reads_codecs {print : RtpMap → Option (List Text)}
    (h : ∀ codec ∈ codecs, ∃ lines, print codec = some lines ∧
      Reads lines fun r => r.write (printedWrites r.mtype codec)) :
    ∃ lines, codecs.mapM print = some lines ∧
      Reads lines.flatten fun r => r.write (codecs.flatMap (printedWrites r.mtype)) := by
  induction codecs with
  | nil => exact ⟨[], rfl, .nil⟩
  | cons codec codecs ih =>
    obtain ⟨hcodec, hcodecs⟩ := List.forall_mem_cons.mp h
    obtain ⟨lines, hlines, hr⟩ := hcodec
    obtain ⟨rest, hrest, hr'⟩ := ih hcodecs
    refine ⟨lines :: rest, by simp [hlines, hrest], (hr.append hr').of_eq ?_⟩
    funext r
    rw [List.flatMap_cons, Reading.write_append]
    rfl

theorem reads_audioCodecs (h : ∀ codec ∈ codecs, codec.Plain ∧ codec.mediaType = some .audio)
    (hu : ∀ codec ∈ codecs, codec.Unmixed) :
    ∃ lines, codecs.mapM SdpInfo.audioCodecLines = some lines ∧
      Reads lines.flatten fun r => r.write (codecs.flatMap (printedWrites r.mtype)) := by
  refine reads_codecs fun codec hcodec => ?_
  obtain ⟨hplain, hmedia⟩ := h codec hcodec
  obtain ⟨clock, hclock⟩ := Option.isSome_iff_exists.mp hplain.clockRate
  obtain ⟨channels, hchannels⟩ := Option.isSome_iff_exists.mp (hplain.channels hmedia)
  have hshow : ShowsChannels (if 1 < channels then '/' :: showUnsigned channels else []) := by
    split_ifs
    · exact .inr ⟨channels, rfl⟩
    · exact .inl rfl
  refine ⟨_, ?_, reads_codec hplain (hu codec hcodec) hshow⟩
  simp [SdpInfo.audioCodecLines, SdpInfo.showChannels, hclock, hchannels]

theorem reads_videoCodecs (h : ∀ codec ∈ codecs, codec.Plain) (hu : ∀ codec ∈ codecs, codec.Unmixed) :
    ∃ lines, codecs.mapM SdpInfo.videoCodecLines = some lines ∧
      Reads lines.flatten fun r => r.write (codecs.flatMap (printedWrites r.mtype)) := by
  refine reads_codecs fun codec hcodec => ?_
  obtain ⟨clock, hclock⟩ := Option.isSome_iff_exists.mp (h codec hcodec).clockRate
  refine ⟨_, ?_, reads_codec (h codec hcodec) (hu codec hcodec) (.inl rfl)⟩
  simp [SdpInfo.videoCodecLines, hclock]

/-- The extensions of a section, as they are read. -/
def trimmed (mtype : MediaType) (extensions : List ExtMap) : List ExtMap :=
  extensions.map fun extension => ⟨extension.value, extension.uri.dropLast, mtype⟩

theorem reads_extensions {extensions : List ExtMap} (h : ∀ e ∈ extensions, e.uri.EndsLine)
    (hu : ∀ e ∈ extensions, e.uri.ClearBut (some .extmap)) :
    Reads (extensions.map SdpInfo.extmapLine) fun r =>
      { r with extensions := r.extensions ++ trimmed r.mtype extensions } := by
  induction extensions with
  | nil => exact Reads.nil.of_eq (funext fun r => by simp [trimmed])
  | cons e extensions ih =>
    obtain ⟨he, hes⟩ := List.forall_mem_cons.mp h
    obtain ⟨hue, hues⟩ := List.forall_mem_cons.mp hu
    refine ((reads_extmapLine he hue).append (ih hes hues)).of_eq (funext fun r => ?_)
    simp [trimmed]

/-! ### Sections -/

/-- A local description has nothing yet that comes from the transport. -/
structure SdpInfo.Local (info : SdpInfo) : Prop where
  candidates : info.candidateVector = []
  cryptos : info.cryptoVector = []
  fingerprint : info.isFingerprint = false

/-- The codecs that a section prints. -/
def SdpInfo.codecsOf (info : SdpInfo) (mtype : MediaType) : List RtpMap :=
  info.payloadVector.filter (·.mediaType = some mtype)

/-- The codecs of the sections that are printed. -/
def SdpInfo.printedCodecs (info : SdpInfo) : List RtpMap :=
  (if info.hasAudio then info.codecsOf .audio else []) ++
    if info.hasVideo then info.codecsOf .video else []

/-- The extensions of the sections that are printed. -/
def SdpInfo.printedExtensions (info : SdpInfo) : List ExtMap :=
  (if info.hasAudio then info.sectionExtensions .audio else []) ++
    if info.hasVideo then info.sectionExtensions .video else []

/-- The tags that are printed. -/
def SdpInfo.printedTags (info : SdpInfo) : List BundleTag :=
  info.bundleTags.filter fun tag => info.isBundle ∨ (info.hasAudio ∧ tag.mediaType = .audio) ∨
    (info.hasVideo ∧ tag.mediaType = .video)

/-- No text that is printed has a marker, the one of its own line apart. -/
structure SdpInfo.Unmixed (info : SdpInfo) : Prop where
  tags : ∀ tag ∈ info.printedTags, tag.id.IsTag
  audio : info.hasAudio → info.iceAudioUsername.ClearBut (some .iceUser) ∧
    info.iceAudioPassword.ClearBut (some .icePass)
  video : info.hasVideo → info.iceVideoUsername.ClearBut (some .iceUser) ∧
    info.iceVideoPassword.ClearBut (some .icePass)
  codecs : ∀ codec ∈ info.printedCodecs, codec.Unmixed
  extensions : ∀ extension ∈ info.printedExtensions, extension.uri.ClearBut (some .extmap)

instance (info : SdpInfo) : Decidable info.Unmixed :=
  decidable_of_iff ((∀ tag ∈ info.printedTags, tag.id.IsTag) ∧
      (info.hasAudio → info.iceAudioUsername.ClearBut (some .iceUser) ∧
        info.iceAudioPassword.ClearBut (some .icePass)) ∧
      (info.hasVideo → info.iceVideoUsername.ClearBut (some .iceUser) ∧
        info.iceVideoPassword.ClearBut (some .icePass)) ∧
      (∀ codec ∈ info.printedCodecs, codec.Unmixed) ∧
        ∀ extension ∈ info.printedExtensions, extension.uri.ClearBut (some .extmap))
    ⟨fun ⟨h1, h2, h3, h4, h5⟩ => ⟨h1, h2, h3, h4, h5⟩, fun ⟨h1, h2, h3, h4, h5⟩ => ⟨h1, h2, h3, h4, h5⟩⟩

/-- The loops over the members of a section end, and read members that were written. -/
structure SdpInfo.Sound (info : SdpInfo) : Prop where
  mediaTypes : ∀ codec ∈ info.payloadVector, codec.mediaType.isSome
  tagCount : info.bundleTags.length < 256
  extensionCount : info.extMapVector.length < 256

/-- The description is printed, and every line is read. -/
structure SdpInfo.Printable (info : SdpInfo) : Prop where
  bundle : info.isBundle → info.bundleTags.length < 256
  sound : info.hasAudio ∨ info.hasVideo → info.Sound
  codecs : ∀ codec ∈ info.printedCodecs, codec.Plain
  extensions : ∀ extension ∈ info.printedExtensions, extension.uri.EndsLine
  audio : info.hasAudio → info.iceAudioUsername.IsCredential ∧ info.iceAudioPassword.IsCredential
  video : info.hasVideo → info.iceVideoUsername.IsCredential ∧ info.iceVideoPassword.IsCredential

theorem SdpInfo.Sound.sectionCodecs (hs : info.Sound) (mtype : MediaType) :
    info.sectionCodecs mtype = some (info.codecsOf mtype) := if_pos hs.mediaTypes

theorem SdpInfo.Sound.extmapLines (hs : info.Sound) (mtype : MediaType)
    (he : ∀ e ∈ info.sectionExtensions mtype, e.uri.EndsLine)
    (hu : ∀ e ∈ info.sectionExtensions mtype, e.uri.ClearBut (some .extmap)) :
    info.extmapLines mtype = some ((info.sectionExtensions mtype).map extmapLine) ∧
      Reads ((info.sectionExtensions mtype).map extmapLine) fun r =>
        { r with extensions := r.extensions ++ trimmed r.mtype (info.sectionExtensions mtype) } := by
  rw [SdpInfo.extmapLines, byteLoop, if_pos hs.extensionCount]
  exact ⟨rfl, reads_extensions he hu⟩

theorem SdpInfo.Sound.midLines (hs : info.Sound) (mtype : MediaType)
    (ht : ∀ tag ∈ info.bundleTags, tag.mediaType = mtype → tag.id.IsTag) :
    info.midLines mtype = some ((info.bundleTags.filter (·.mediaType = mtype)).map (midLine ·.id)) ∧
      Reads ((info.bundleTags.filter (·.mediaType = mtype)).map (midLine ·.id)) id := by
  rw [SdpInfo.midLines, byteLoop, if_pos hs.tagCount]
  refine ⟨rfl, ?_⟩
  rw [List.map_eq_flatMap]
  refine Reads.flatMap fun tag htag => reads_midLine ?_
  obtain ⟨hmem, hmedia⟩ := List.mem_filter.mp htag
  exact ht tag hmem (of_decide_eq_true hmedia)

/-- What an audio section says. -/
def readAudio (info : SdpInfo) (r : Reading) : Reading :=
  { r with
    mtype := .audio
    audioUsername := info.iceAudioUsername
    audioPassword := info.iceAudioPassword
    audioDirection := info.audioDirection
    extensions := r.extensions ++ trimmed .audio (info.sectionExtensions .audio)
    parsed := applyAll r.parsed ((info.codecsOf .audio).flatMap (printedWrites .audio)) }

/-- What a video section says. -/
def readVideo (info : SdpInfo) (r : Reading) : Reading :=
  { r with
    mtype := .video
    videoUsername := info.iceVideoUsername
    videoPassword := info.iceVideoPassword
    videoDirection := info.videoDirection
    extensions := r.extensions ++ trimmed .video (info.sectionExtensions .video)
    parsed := applyAll r.parsed ((info.codecsOf .video).flatMap (printedWrites .video)) }

theorem reads_audioLines (hl : info.Local) (hu : info.Unmixed) (hp : info.Printable)
    (hm : msidtemp.Bare) (ha : info.hasAudio) (hd : info.audioDirection.isSome) :
    ∃ lines, info.audioLines msidtemp = some lines ∧ Reads lines (readAudio info) := by
  have hs := hp.sound (.inl ha)
  have hprinted {codec} (hc : codec ∈ info.codecsOf .audio) : codec ∈ info.printedCodecs :=
    List.mem_append_left _ (by rwa [if_pos ha])
  have hmedia {codec} (hc : codec ∈ info.codecsOf .audio) : codec.mediaType = some .audio := by
    simpa using (List.mem_filter.mp hc).2
  have hpe {e} (he : e ∈ info.sectionExtensions .audio) : e ∈ info.printedExtensions :=
    List.mem_append_left _ (by rwa [if_pos ha])
  obtain ⟨husername, hpassword⟩ := hp.audio ha
  obtain ⟨hclearUser, hclearPass⟩ := hu.audio ha
  obtain ⟨direction, hd⟩ := Option.isSome_iff_exists.mp hd
  obtain ⟨codecLines, hlines, hcodec⟩ := reads_audioCodecs
    (fun codec hc => ⟨hp.codecs codec (hprinted hc), hmedia hc⟩)
    fun codec hc => hu.codecs codec (hprinted hc)
  obtain ⟨hext, hexts⟩ := hs.extmapLines .audio (fun e he => hp.extensions e (hpe he))
    fun e he => hu.extensions e (hpe he)
  obtain ⟨hmid, hmids⟩ := hs.midLines .audio fun tag ht hmedia => hu.tags tag
    (List.mem_filter.mpr ⟨ht, by simp [ha, hmedia]⟩)
  have hcredentials : info.printedAudioCredentials = (info.iceAudioUsername, info.iceAudioPassword) := by
    rw [SdpInfo.printedAudioCredentials, if_neg husername.1]
  have hopen := @reads_mediaLines .audio info (info.codecsOf .audio) info.audioCodecs .audio
    (.inl ⟨rfl, rfl⟩)
  have hcred := reads_credentialLines husername hpassword hclearUser hclearPass
  have hssrc : Reads (if direction = .recvonly then []
      else SdpInfo.ssrcLines msidtemp "a0".toList info.printedAudioSsrc) id := by
    split_ifs
    · exact .nil
    · exact reads_ssrcLines hm (by decide) _
  refine ⟨_, ?_, ((((((((hopen.append hcred).append (reads_setupLine info.dtlsRole)).append
    (reads_directionLine direction)).append hexts).append hmids).append (reads_muxLines info)).append
      hcodec).append hssrc).of_eq ?_⟩
  · simp [SdpInfo.audioLines, hs.sectionCodecs, hext, hmid, hlines, hd, hl.candidates, hcredentials,
      SdpInfo.fingerprintLines, hl.fingerprint, SdpInfo.cryptoLines, hl.cryptos, Mark.text]
  · funext r
    simp [readAudio, Reading.write, hd]

theorem reads_videoLines (hl : info.Local) (hu : info.Unmixed) (hp : info.Printable)
    (hm : msidtemp.Bare) (hv : info.hasVideo) (hd : info.videoDirection.isSome) :
    ∃ lines, info.videoLines msidtemp = some lines ∧ Reads lines (readVideo info) := by
  have hs := hp.sound (.inr hv)
  have hprinted {codec} (hc : codec ∈ info.codecsOf .video) : codec ∈ info.printedCodecs :=
    List.mem_append_right _ (by rwa [if_pos hv])
  have hpe {e} (he : e ∈ info.sectionExtensions .video) : e ∈ info.printedExtensions :=
    List.mem_append_right _ (by rwa [if_pos hv])
  obtain ⟨husername, hpassword⟩ := hp.video hv
  obtain ⟨hclearUser, hclearPass⟩ := hu.video hv
  obtain ⟨direction, hd⟩ := Option.isSome_iff_exists.mp hd
  obtain ⟨codecLines, hlines, hcodec⟩ := reads_videoCodecs
    (fun codec hc => hp.codecs codec (hprinted hc)) fun codec hc => hu.codecs codec (hprinted hc)
  obtain ⟨hext, hexts⟩ := hs.extmapLines .video (fun e he => hp.extensions e (hpe he))
    fun e he => hu.extensions e (hpe he)
  obtain ⟨hmid, hmids⟩ := hs.midLines .video fun tag ht hmedia => hu.tags tag
    (List.mem_filter.mpr ⟨ht, by simp [hv, hmedia]⟩)
  have hopen := @reads_mediaLines .video info (info.codecsOf .video) info.videoCodecs .video
    (.inr ⟨rfl, rfl⟩)
  have hcred := reads_credentialLines husername hpassword hclearUser hclearPass
  have hssrc : Reads (if direction = .recvonly then []
      else info.printedVideoSsrcs.flatMap (SdpInfo.ssrcLines msidtemp "v0".toList)) id := by
    split_ifs
    · exact .nil
    · exact Reads.flatMap fun ssrc _ => reads_ssrcLines hm (by decide) ssrc
  refine ⟨_, ?_, ((((((((hopen.append hcred).append hexts).append (reads_setupLine info.dtlsRole)).append
    (reads_directionLine direction)).append hmids).append (reads_muxLines info)).append
      hcodec).append hssrc).of_eq ?_⟩
  · simp [SdpInfo.videoLines, hs.sectionCodecs, hext, hmid, hlines, hd, hl.candidates,
      SdpInfo.fingerprintLines, hl.fingerprint, SdpInfo.cryptoLines, hl.cryptos, Mark.text]
  · funext r
    simp [readVideo, Reading.write, hd]

end KkLicode.Sdp
