import KkLicode.Sdp.PrintedCodecs
import KkLicode.Sdp.ReadTexts

/-! The round trip of a local description: it is printed and read by a new description
with the same internal codecs. A description that comes back is printable: its members
were written, the reader took every line, and no text has a line end or a separator. -/

namespace KkLicode.Sdp

open Base Folds CodecWrite

variable {info info' : SdpInfo} {mtype : MediaType} {codec : RtpMap} {line msidtemp media text : Text}
  {lines : List Text}

/-- What is compared of a codec. -/
def RtpMap.described (codec : RtpMap) :
    UInt32 × Text × Option UInt32 × List Text × StdMap Text Text :=
  (codec.payloadType, codec.encodingName, codec.clockRate, codec.feedbackTypes,
    codec.formatParameters)

/-- The sections of a description are described by another one. -/
structure SameSections (info info' : SdpInfo) : Prop where
  codecs : (info'.payloadVector.map RtpMap.described).Perm (info.printedCodecs.map RtpMap.described)
  extensions : info'.extMapVector.Perm info.printedExtensions
  audio : info.hasAudio → info'.iceAudioUsername = info.iceAudioUsername ∧
    info'.iceAudioPassword = info.iceAudioPassword ∧ info'.audioDirection = info.audioDirection
  video : info.hasVideo → info'.iceVideoUsername = info.iceVideoUsername ∧
    info'.iceVideoPassword = info.iceVideoPassword ∧ info'.videoDirection = info.videoDirection

/-- The text of the description is read, and describes the same. -/
def SdpInfo.RoundTrips (info : SdpInfo) (msidtemp media : Text) : Prop :=
  ∃ printed text info', info.getSdp msidtemp = some (printed, text) ∧
    (SdpInfo.new info.internalPayloadVector).processSdp text media = some (info', true) ∧
      SameSections info info'

/-! ### What a printed description has -/

theorem byteLoop_eq_some {α : Type*} {l l' : List α} (h : byteLoop l = some l') :
    l.length < 256 ∧ l' = l := by
  rw [byteLoop] at h
  split_ifs at h with hlen
  exact ⟨hlen, (Option.some.inj h).symm⟩

theorem mem_of_mapM {α β : Type*} {print : α → Option β} {l : List α} {l' : List β}
    (h : l.mapM print = some l') : ∀ a ∈ l, ∃ b ∈ l', print a = some b := by
  induction l generalizing l' with
  | nil => simp
  | cons a l ih =>
    rw [List.mapM_cons] at h
    obtain ⟨b, hb, h⟩ := Option.bind_eq_some_iff.mp h
    obtain ⟨rest, hrest, h⟩ := Option.bind_eq_some_iff.mp h
    rw [← Option.some.inj h, List.forall_mem_cons]
    refine ⟨⟨b, List.mem_cons_self, hb⟩, fun a' ha' => ?_⟩
    obtain ⟨b', hb', hprint⟩ := ih hrest a' ha'
    exact ⟨b', List.mem_cons_of_mem b hb', hprint⟩

/-- A printed codec has what its first line says, and the lines of its attributes. -/
structure RtpMap.PrintedIn (codec : RtpMap) (lines : List Text) : Prop where
  clockRate : codec.clockRate.isSome
  channels : codec.mediaType = some .audio → codec.channels.isSome
  attributes : SdpInfo.attributeLines codec ⊆ lines

/-- What is in the lines of a section. -/
structure SdpInfo.SectionPrinted (info : SdpInfo) (mtype : MediaType) (password : Text)
    (lines : List Text) : Prop where
  sound : info.Sound
  password : Marker.icePass ++ ':' :: password ∈ lines
  extmaps : ∀ extension ∈ info.sectionExtensions mtype, extmapLine extension ∈ lines
  codecs : ∀ codec ∈ info.codecsOf mtype, codec.PrintedIn lines

theorem SdpInfo.sectionCodecs_eq_some {codecs : List RtpMap}
    (h : info.sectionCodecs mtype = some codecs) :
    (∀ codec ∈ info.payloadVector, codec.mediaType.isSome) ∧ codecs = info.codecsOf mtype := by
  rw [sectionCodecs] at h
  split_ifs at h with hmedia
  exact ⟨hmedia, (Option.some.inj h).symm⟩

/-- The parts of a section that were printed. -/
theorem SdpInfo.SectionPrinted.of_parts {codecs : List RtpMap} {extmaps mids : List Text}
    {codecLines : List (List Text)} {print : RtpMap → Option (List Text)} {password : Text}
    (hcodecs : info.sectionCodecs mtype = some codecs)
    (hext : info.extmapLines mtype = some extmaps) (hmids : info.midLines mtype = some mids)
    (hlines : codecs.mapM print = some codecLines)
    (hpassword : Marker.icePass ++ ':' :: password ∈ lines)
    (hextmaps : extmaps ⊆ lines) (hflatten : codecLines.flatten ⊆ lines)
    (hprint : ∀ codec ∈ info.codecsOf mtype, ∀ l, print codec = some l → codec.PrintedIn l) :
    info.SectionPrinted mtype password lines := by
  obtain ⟨hmedia, rfl⟩ := sectionCodecs_eq_some hcodecs
  obtain ⟨_, hcount, hext⟩ := Option.bind_eq_some_iff.mp hext
  obtain ⟨_, htags, -⟩ := Option.bind_eq_some_iff.mp hmids
  constructor
  case sound => exact ⟨hmedia, (byteLoop_eq_some htags).1, (byteLoop_eq_some hcount).1⟩
  case password => exact hpassword
  case extmaps =>
    intro extension hmem
    apply hextmaps
    rw [← Option.some.inj hext]
    exact List.mem_map_of_mem hmem
  case codecs =>
    intro codec hc
    obtain ⟨l, hl, hprinted⟩ := mem_of_mapM hlines codec hc
    obtain ⟨hclock, hchannels, hattributes⟩ := hprint codec hc l hprinted
    refine ⟨hclock, hchannels, fun line hline => hflatten ?_⟩
    exact List.mem_flatten.mpr ⟨l, hl, hattributes hline⟩

theorem RtpMap.printedIn_audio (h : SdpInfo.audioCodecLines codec = some lines) :
    codec.PrintedIn lines := by
  obtain ⟨clock, hclock, h⟩ := Option.bind_eq_some_iff.mp h
  obtain ⟨shown, hshown, h⟩ := Option.bind_eq_some_iff.mp h
  obtain ⟨channels, hchannels, -⟩ := Option.bind_eq_some_iff.mp hshown
  rw [← Option.some.inj h]
  exact ⟨Option.isSome_of_eq_some hclock, fun _ => Option.isSome_of_eq_some hchannels,
    List.subset_cons_self _ _⟩

theorem RtpMap.printedIn_video (hvideo : codec.mediaType = some .video)
    (h : SdpInfo.videoCodecLines codec = some lines) : codec.PrintedIn lines := by
  obtain ⟨clock, hclock, h⟩ := Option.bind_eq_some_iff.mp h
  rw [← Option.some.inj h]
  exact ⟨Option.isSome_of_eq_some hclock, fun ha => by simp [hvideo] at ha,
    List.subset_cons_self _ _⟩

theorem SdpInfo.sectionPrinted_audio (h : info.audioLines msidtemp = some lines) :
    info.SectionPrinted .audio info.printedAudioCredentials.2 lines := by
  obtain ⟨codecs, hcodecs, h⟩ := Option.bind_eq_some_iff.mp h
  obtain ⟨candidates, -, h⟩ := Option.bind_eq_some_iff.mp h
  obtain ⟨direction, -, h⟩ := Option.bind_eq_some_iff.mp h
  obtain ⟨extmaps, hext, h⟩ := Option.bind_eq_some_iff.mp h
  obtain ⟨mids, hmids, h⟩ := Option.bind_eq_some_iff.mp h
  obtain ⟨codecLines, hlines, h⟩ := Option.bind_eq_some_iff.mp h
  rw [← Option.some.inj h]
  apply SectionPrinted.of_parts hcodecs hext hmids hlines
  · simp [credentialLines]
  · exact fun line hline => by simp [hline]
  · exact fun line hline => by simp only [List.mem_append, hline, true_or, or_true]
  · exact fun codec _ l => codec.printedIn_audio

theorem SdpInfo.sectionPrinted_video (h : info.videoLines msidtemp = some lines) :
    info.SectionPrinted .video info.iceVideoPassword lines := by
  obtain ⟨codecs, hcodecs, h⟩ := Option.bind_eq_some_iff.mp h
  obtain ⟨candidates, -, h⟩ := Option.bind_eq_some_iff.mp h
  obtain ⟨extmaps, hext, h⟩ := Option.bind_eq_some_iff.mp h
  obtain ⟨direction, -, h⟩ := Option.bind_eq_some_iff.mp h
  obtain ⟨mids, hmids, h⟩ := Option.bind_eq_some_iff.mp h
  obtain ⟨codecLines, hlines, h⟩ := Option.bind_eq_some_iff.mp h
  rw [← Option.some.inj h]
  apply SectionPrinted.of_parts hcodecs hext hmids hlines
  · simp [credentialLines]
  · exact fun line hline => by simp [hline]
  · exact fun line hline => by simp only [List.mem_append, hline, true_or, or_true]
  · intro codec hc l
    exact RtpMap.printedIn_video (by simpa using (List.mem_filter.mp hc).2)

theorem SdpInfo.SectionPrinted.mono {password : Text} {lines' : List Text}
    (h : info.SectionPrinted mtype password lines) (hsub : lines ⊆ lines') :
    info.SectionPrinted mtype password lines' where
  sound := h.sound
  password := hsub h.password
  extmaps extension he := hsub (h.extmaps extension he)
  codecs codec hc := ⟨(h.codecs codec hc).clockRate, (h.codecs codec hc).channels,
    fun _ hline => hsub ((h.codecs codec hc).attributes hline)⟩

/-- What is in the lines of a description. -/
structure SdpInfo.PrintedIn (info : SdpInfo) (lines : List Text) : Prop where
  bundle : info.isBundle → info.bundleTags.length < 256
  audio : info.hasAudio → info.SectionPrinted .audio info.printedAudioCredentials.2 lines
  video : info.hasVideo → info.SectionPrinted .video info.iceVideoPassword lines

theorem SdpInfo.printedIn (h : info.sdpLines msidtemp = some lines) : info.PrintedIn lines := by
  rw [SdpInfo.sdpLines_eq] at h
  obtain ⟨session, hsession, h⟩ := Option.bind_eq_some_iff.mp h
  obtain ⟨audio, haudio, h⟩ := Option.bind_eq_some_iff.mp h
  obtain ⟨video, hvideo, h⟩ := Option.bind_eq_some_iff.mp h
  rw [← Option.some.inj h]
  constructor
  case bundle =>
    intro hb
    obtain ⟨bundle, hbundle, -⟩ := Option.bind_eq_some_iff.mp hsession
    rw [SdpInfo.bundleLines, if_pos hb] at hbundle
    obtain ⟨_, htags, -⟩ := Option.bind_eq_some_iff.mp hbundle
    exact (byteLoop_eq_some htags).1
  case audio =>
    intro ha
    rw [if_pos ha] at haudio
    exact (sectionPrinted_audio haudio).mono fun line hline => by simp [hline]
  case video =>
    intro hv
    rw [if_pos hv] at hvideo
    exact (sectionPrinted_video hvideo).mono fun line hline => by simp [hline]

namespace SdpInfo.PrintedIn

variable (h : info.PrintedIn lines)

include h

theorem sound (hsection : info.hasAudio ∨ info.hasVideo) : info.Sound :=
  hsection.elim (fun ha => (h.audio ha).sound) fun hv => (h.video hv).sound

theorem codecs (hc : codec ∈ info.printedCodecs) : codec.PrintedIn lines := by
  rcases List.mem_append.mp hc with hmem | hmem <;> split_ifs at hmem with hhas
  · exact (h.audio hhas).codecs codec hmem
  · cases hmem
  · exact (h.video hhas).codecs codec hmem
  · cases hmem

theorem extmaps {extension : ExtMap} (he : extension ∈ info.printedExtensions) :
    extmapLine extension ∈ lines := by
  rcases List.mem_append.mp he with hmem | hmem <;> split_ifs at hmem with hhas
  · exact (h.audio hhas).extmaps extension hmem
  · cases hmem
  · exact (h.video hhas).extmaps extension hmem
  · cases hmem

end SdpInfo.PrintedIn

/-! ### What is read of a printed line -/

/-- The handlers of the codecs took a line that was read. -/
theorem codecLine_of_processLine {loop loop' : Loop} (h : processLine loop line = some loop')
    (hno : ¬ line.Has Marker.ssrcgrouptag) : (feedbackWrites line).isSome ∧
      (parameterWrites line).isSome ∧
        (line.on Marker.extmap (pushExtmap line loop'.mtype) []).isSome := by
  have hskip : ¬ GroupSkips line loop'.mtype := fun hs => hno hs.1
  obtain ⟨ws, hws, -⟩ := processLine_codecs h
  obtain ⟨added, hadded, -⟩ := processLine_extensions h
  rw [codecWrites, if_neg hskip] at hws
  rw [lineExtensions, if_neg hskip] at hadded
  obtain ⟨_, -, hws⟩ := Option.bind_eq_some_iff.mp hws
  obtain ⟨_, hfeedback, hws⟩ := Option.bind_eq_some_iff.mp hws
  obtain ⟨_, hparameter, -⟩ := Option.bind_eq_some_iff.mp hws
  exact ⟨Option.isSome_of_eq_some hfeedback, Option.isSome_of_eq_some hparameter,
    Option.isSome_of_eq_some hadded⟩

/-- A text behind a separator was taken by the handlers of the codecs. -/
theorem taken_of_processLine {m : Mark} {w s : Text} {c : Char} {loop loop' : Loop}
    (h : processLine loop (m.text ++ (w ++ c :: s)) = some loop') (hm : m ≠ .ssrcgrouptag)
    (hs : s.ClearBut (some m)) (hw : w.Bare) (hc : c ∉ ['=', 'a', 'b', 'm', '\n']) :
    (feedbackWrites (m.text ++ (w ++ c :: s))).isSome ∧
      (parameterWrites (m.text ++ (w ++ c :: s))).isSome ∧
        ((m.text ++ (w ++ c :: s)).on Marker.extmap
          (pushExtmap (m.text ++ (w ++ c :: s)) loop'.mtype) []).isSome := by
  refine codecLine_of_processLine h fun hmark => hm ?_
  exact Option.some.inj ((sole_behind hs hw hc .ssrcgrouptag).mp hmark)

theorem ne_nil_of_feedbackLine {pt : UInt32} {type : Text} {loop loop' : Loop}
    (hclear : type.ClearBut (some .rtcpfb))
    (h : processLine loop (SdpInfo.feedbackLine pt type) = some loop') : type ≠ [] := by
  have hshape : SdpInfo.feedbackLine pt type =
      Mark.rtcpfb.text ++ (showInt (toInt pt) ++ ' ' :: type) := by
    simp only [SdpInfo.feedbackLine, Mark.text, List.append_assoc]
  have hparse := @parseFeedback_line pt type
  rw [hshape] at h hparse
  have hwrites := (taken_of_processLine h (by decide) hclear (bare_showInt _) (by decide)).1
  rw [feedbackWrites, Text.on, if_pos ⟨[], _, rfl⟩, hparse] at hwrites
  rintro rfl
  simp at hwrites

theorem parameterWrites_of_line {pt : UInt32} {parameter : Text × Text} {loop loop' : Loop}
    (hclear : (parameterText parameter).ClearBut (some .fmtp))
    (h : processLine loop (SdpInfo.parameterLine pt parameter) = some loop') :
    (parameterWrites (SdpInfo.parameterLine pt parameter)).isSome := by
  have hshape : SdpInfo.parameterLine pt parameter =
      Mark.fmtp.text ++ (showInt (toInt pt) ++ ' ' :: parameterText parameter) := by
    simp only [SdpInfo.parameterLine, parameterText, Mark.text, List.append_assoc]
  rw [hshape] at h ⊢
  exact (taken_of_processLine h (by decide) hclear (bare_showInt _) (by decide)).2.1

theorem ne_nil_of_extmapLine {extension : ExtMap} {loop loop' : Loop}
    (hclear : extension.uri.ClearBut (some .extmap))
    (h : processLine loop (SdpInfo.extmapLine extension) = some loop') : extension.uri ≠ [] := by
  have hshape : SdpInfo.extmapLine extension =
      Mark.extmap.text ++ (showUnsigned extension.value ++ ' ' :: extension.uri) := by
    simp only [SdpInfo.extmapLine, Mark.text, List.append_assoc]
  have hsplit := splitOneOf_extmapLine extension
  rw [hshape] at h hsplit
  have hpush := (taken_of_processLine h (by decide) hclear (bare_showUnsigned _) (by decide)).2.2
  rw [Text.on, if_pos ⟨[], _, rfl⟩, pushExtmap, hsplit] at hpush
  intro hnil
  simp [hnil] at hpush

theorem ne_nil_of_passwordLine {password : Text} {loop loop' : Loop}
    (h : processLine loop (Marker.icePass ++ ':' :: password) = some loop') : password ≠ [] := by
  obtain ⟨mid, hmid, -⟩ := processLine_cases h
  have hs := sessionLine_step hmid
  have hvideo := hs.videoPassword
  have haudio := hs.audioPassword
  rw [Text.on, if_pos ⟨[], _, rfl⟩, setVideoCredential] at hvideo
  rw [Text.on, if_pos ⟨[], _, rfl⟩, setAudioCredential] at haudio
  have hparse : ∃ credential, parseCredential (Marker.icePass ++ ':' :: password) = some credential := by
    split_ifs at hvideo haudio
    · exact ⟨_, haudio⟩
    · exact ⟨_, hvideo⟩
  rintro rfl
  obtain ⟨credential, hparse⟩ := hparse
  have hnone : parseCredential (Marker.icePass ++ [':']) = none := by decide
  rw [hnone] at hparse
  cases hparse

/-! ### What comes back is printable -/

theorem notMem_behind {m : Mark} {w s : Text} {c : Char} (hw : w.Bare) (hc : '\n' ≠ c) (hs : '\n' ∉ s) :
    '\n' ∉ m.text ++ (w ++ c :: s) := by
  simp [m.no_lineEnd, hw.notMem_lineEnd, hc, hs]

theorem RtpMap.PrintedIn.plain (h : codec.PrintedIn lines) (ho : codec.OfLines) (hu : codec.Unmixed)
    (hread : ∀ line ∈ lines, '\n' ∉ line → ∃ loop loop', processLine loop line = some loop') :
    codec.Plain := by
  constructor
  case name => exact ho.name
  case clockRate => exact h.clockRate
  case channels => exact h.channels
  case feedback =>
    intro type ht
    have hend : '\n' ∉ SdpInfo.feedbackLine codec.payloadType type := by
      rw [SdpInfo.feedbackLine, List.append_assoc]
      exact @notMem_behind .rtcpfb _ _ _ (bare_showInt _) (by decide) (ho.feedback type ht)
    obtain ⟨_, _, hline⟩ := hread _ (h.attributes
      (List.mem_append_left _ (List.mem_map_of_mem ht))) hend
    exact ⟨ne_nil_of_feedbackLine (hu.feedback type ht) hline, ho.feedback type ht⟩
  case parameters =>
    intro parameter hp
    have hends := ho.parameters parameter.1 parameter.2 (StdMap.mem_pairs_iff.mp hp)
    have htext : '\n' ∉ parameterText parameter := by
      rw [parameterText]
      split_ifs
      · exact hends.2
      · simpa using hends
    have hend : '\n' ∉ SdpInfo.parameterLine codec.payloadType parameter := by
      rw [SdpInfo.parameterLine, List.append_assoc]
      exact @notMem_behind .fmtp _ _ _ (bare_showInt _) (by decide) htext
    obtain ⟨_, _, hline⟩ := hread _ (h.attributes
      (List.mem_append_right _ (List.mem_map_of_mem hp))) hend
    exact ⟨htext, parameterWrites_of_line (hu.parameters parameter hp) hline⟩

/-- The texts of the codecs that come back come from lines. -/
theorem ofLines_of_described {loop : Loop} {n : Negotiated} {internal : List RtpMap}
    (hof : loop.info.OfLines) (hkey : Keyed loop.info.payloadParsedMap)
    (hn : negotiate internal loop.info.payloadParsedMap {} = some n)
    (hperm : (n.payloadVector.map RtpMap.described).Perm (info.printedCodecs.map RtpMap.described)) :
    ∀ codec ∈ info.printedCodecs, codec.OfLines := by
  intro codec hc
  obtain ⟨codec', hc', heq⟩ := List.mem_map.mp (hperm.mem_iff.mpr (List.mem_map_of_mem hc))
  obtain ⟨entry, hwithin⟩ := negotiate_within hkey hn codec' hc'
  have hentry := hof.codecs codec'.payloadType
  rw [codecOf_of_find hwithin.found] at hentry
  simp only [RtpMap.described, Prod.mk.injEq] at heq
  obtain ⟨-, hname, -, hfeedback, hparameters⟩ := heq
  constructor
  case name => exact hname ▸ hwithin.name ▸ hentry.name
  case feedback =>
    exact fun type ht => hentry.feedback type (hwithin.feedback type (hfeedback ▸ ht))
  case parameters =>
    exact fun option value hv =>
      hentry.parameters option value (hwithin.parameters option value (hparameters ▸ hv))

/-- A description that makes the round trip is printable. -/
theorem SdpInfo.RoundTrips.printable (h : info.RoundTrips msidtemp media) (hu : info.Unmixed) :
    info.Printable := by
  obtain ⟨printed, text, info', hget, hprocess, hsame⟩ := h
  obtain ⟨lines, hlines, hget⟩ := Option.bind_eq_some_iff.mp hget
  obtain ⟨-, rfl⟩ := Prod.mk.inj (Option.some.inj hget)
  obtain ⟨loop, hloop, ⟨-, hfalse, -⟩ | ⟨hno, -, n, hn, rfl⟩⟩ := processSdp_cases hprocess
  · cases hfalse
  have hof := (SdpInfo.ofLines_new _).readLines hloop
  have hfill := hof.fill
  obtain ⟨hvideoName, haudioName⟩ := SdpInfo.fill_ne_nil hno
  have hcodecs := readLines_codecs hloop
  have hkey : Keyed loop.info.payloadParsedMap := hcodecs.parsed ▸ keyed_empty.applyAll _
  rw [hcodecs.negotiated] at hn
  have htexts := ofLines_of_described hof hkey hn hsame.codecs
  have hread (line) (hmem : line ∈ lines) (hend : '\n' ∉ line) :
      ∃ loop loop', processLine loop line = some loop' :=
    foldlM_defined hloop line (mem_getlines_flatMap hmem hend)
  have hprinted := printedIn hlines
  have hpassword (password : Text) (hmem : Marker.icePass ++ ':' :: password ∈ lines)
      (havoids : password.Avoids "\r\n".toList) : password.IsCredential := by
    have hend : '\n' ∉ Marker.icePass ++ ':' :: password :=
      @notMem_behind .icePass [] _ _ .nil (by decide) fun hm => havoids _ hm (by decide)
    obtain ⟨_, _, hline⟩ := hread _ hmem hend
    exact ⟨ne_nil_of_passwordLine hline, havoids⟩
  constructor
  case bundle => exact hprinted.bundle
  case sound => exact hprinted.sound
  case codecs =>
    intro codec hc
    exact (hprinted.codecs hc).plain (htexts codec hc) (hu.codecs codec hc) hread
  case extensions =>
    intro extension he
    have huri := hfill.extensions extension (hsame.extensions.mem_iff.mpr he)
    have hend : '\n' ∉ extmapLine extension := by
      rw [extmapLine, List.append_assoc]
      exact @notMem_behind .extmap _ _ _ (bare_showUnsigned _) (by decide) huri
    obtain ⟨_, _, hline⟩ := hread _ (hprinted.extmaps he) hend
    exact ⟨ne_nil_of_extmapLine (hu.extensions extension he) hline, huri⟩
  case audio =>
    intro ha
    obtain ⟨huser, hpass, -⟩ := hsame.audio ha
    have hne : info.iceAudioUsername ≠ [] := huser ▸ haudioName
    have hmem := (hprinted.audio ha).password
    rw [SdpInfo.printedAudioCredentials, if_neg hne] at hmem
    exact ⟨⟨hne, huser ▸ hfill.audioUsername⟩, hpassword _ hmem (hpass ▸ hfill.audioPassword)⟩
  case video =>
    intro hv
    obtain ⟨huser, hpass, -⟩ := hsame.video hv
    exact ⟨⟨huser ▸ hvideoName, huser ▸ hfill.videoUsername⟩,
      hpassword _ (hprinted.video hv).password (hpass ▸ hfill.videoPassword)⟩

end KkLicode.Sdp
