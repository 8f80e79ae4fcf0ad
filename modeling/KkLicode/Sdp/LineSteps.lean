import KkLicode.Sdp.CodecWrites

/-! What a line does, and from it what all lines of a description do. Nothing of the
negotiation is written before the last line. What the lines add is collected section by
section: `overLines` runs a reader of lines with the section of each. -/

namespace KkLicode.Sdp

open Base CodecWrite

variable {loop loop' : Loop} {line : Text} {lines : List Text} {mtype : MediaType}

/-- What the handlers before the codecs do to the members that matter below. -/
structure SessionStep (loop : Loop) (line : Text) (loop' : Loop) : Prop where
  mtype : loop'.mtype = lineMedia loop.mtype line
  negotiated : loop'.info.toNegotiated = loop.info.toNegotiated
  internal : loop'.info.internalPayloadVector = loop.info.internalPayloadVector
  parsed : loop'.info.payloadParsedMap = loop.info.payloadParsedMap
  extensions : loop'.info.extMapVector = loop.info.extMapVector
  candidates : line.on Marker.cand (pushCandidate line loop'.mtype) loop.info.candidateVector =
    some loop'.info.candidateVector
  videoUsername : line.on Marker.iceUser (setVideoCredential line loop'.mtype)
    loop.info.iceVideoUsername = some loop'.info.iceVideoUsername
  audioUsername : line.on Marker.iceUser (setAudioCredential line loop'.mtype)
    loop.info.iceAudioUsername = some loop'.info.iceAudioUsername
  videoPassword : line.on Marker.icePass (setVideoCredential line loop'.mtype)
    loop.info.iceVideoPassword = some loop'.info.iceVideoPassword
  audioPassword : line.on Marker.icePass (setAudioCredential line loop'.mtype)
    loop.info.iceAudioPassword = some loop'.info.iceAudioPassword
  tags : line.on Marker.mid (setMid line loop'.mtype loop'.info.isBundle)
    (loop.info.bundleTags ++ groupTags line) = some loop'.info.bundleTags
  audioSsrc : line.on Marker.ssrctag (setAudioSsrc line loop'.mtype) loop.info.audioSsrc =
    some loop'.info.audioSsrc
  videoSsrcs : ∃ list, line.on Marker.ssrctag
      (addSsrc line loop'.mtype loop.info.videoRtxSsrcMap) loop.info.videoSsrcList = some list ∧
    loop'.info.videoSsrcList = (simulcastSsrcs line loop'.mtype).foldl
      (maybeAddSsrcToList loop.info.videoRtxSsrcMap) list
  rtxSsrcs : loop'.info.videoRtxSsrcMap =
    addFidGroup line loop'.mtype loop.info.videoRtxSsrcMap

theorem sessionLine_step (h : sessionLine loop line = some loop') :
    SessionStep loop line loop' := by
  obtain ⟨_, hfp, h⟩ := Option.bind_eq_some_iff.mp h
  obtain ⟨_, hsetup, h⟩ := Option.bind_eq_some_iff.mp h
  obtain ⟨_, hgroup, h⟩ := Option.bind_eq_some_iff.mp h
  obtain ⟨_, hcand, h⟩ := Option.bind_eq_some_iff.mp h
  obtain ⟨_, hcrypto, h⟩ := Option.bind_eq_some_iff.mp h
  obtain ⟨_, hvideo, h⟩ := Option.bind_eq_some_iff.mp h
  obtain ⟨_, haudio, h⟩ := Option.bind_eq_some_iff.mp h
  obtain ⟨_, hvideoPass, h⟩ := Option.bind_eq_some_iff.mp h
  obtain ⟨_, haudioPass, h⟩ := Option.bind_eq_some_iff.mp h
  obtain ⟨_, htags, h⟩ := Option.bind_eq_some_iff.mp h
  obtain ⟨_, hssrcs, h⟩ := Option.bind_eq_some_iff.mp h
  obtain ⟨_, hssrc, h⟩ := Option.bind_eq_some_iff.mp h
  rw [← Option.some.inj h]
  exact ⟨rfl, rfl, rfl, rfl, rfl, hcand, hvideo, haudio, hvideoPass, haudioPass, htags, hssrc,
    ⟨_, hssrcs, rfl⟩, rfl⟩

/-- The handlers of the codecs write the codecs, the extensions and the bandwidth. -/
theorem codecLine_frame (h : codecLine loop line = some loop') : ∃ parsed extensions bandwidth,
    loop' = { loop with info := { loop.info with
      payloadParsedMap := parsed
      extMapVector := extensions
      videoBandwidth := bandwidth } } := by
  obtain ⟨_, -, h⟩ := Option.bind_eq_some_iff.mp h
  obtain ⟨extensions, -, h⟩ := Option.bind_eq_some_iff.mp h
  obtain ⟨_, -, h⟩ := Option.bind_eq_some_iff.mp h
  obtain ⟨parsed, -, h⟩ := Option.bind_eq_some_iff.mp h
  exact ⟨parsed, extensions, _, (Option.some.inj h).symm⟩

/-- A line is read by the first handlers, and by the others if it is not skipped. -/
theorem processLine_cases (h : processLine loop line = some loop') :
    ∃ mid, sessionLine loop line = some mid ∧
      (GroupSkips line mid.mtype ∧ loop' = mid ∨
        ¬ GroupSkips line mid.mtype ∧ codecLine mid line = some loop') := by
  rw [processLine, Option.bind_eq_bind, Option.bind_eq_some_iff] at h
  obtain ⟨mid, hmid, h⟩ := h
  refine ⟨mid, hmid, ?_⟩
  split_ifs at h with hs
  · exact .inl ⟨hs, (Option.some.inj h).symm⟩
  · exact .inr ⟨hs, h⟩

/-- A line opens or keeps its section, leaves what the negotiation writes, and makes its
writes to the codecs. -/
structure CodecStep (loop : Loop) (ws : List CodecWrite) (loop' : Loop) : Prop where
  negotiated : loop'.info.toNegotiated = loop.info.toNegotiated
  internal : loop'.info.internalPayloadVector = loop.info.internalPayloadVector
  parsed : loop'.info.payloadParsedMap = applyAll loop.info.payloadParsedMap ws

theorem processLine_mtype (h : processLine loop line = some loop') :
    loop'.mtype = lineMedia loop.mtype line := by
  obtain ⟨mid, hmid, ⟨-, rfl⟩ | ⟨-, h⟩⟩ := processLine_cases h
  · exact (sessionLine_step hmid).mtype
  · obtain ⟨_, _, _, rfl⟩ := codecLine_frame h
    exact (sessionLine_step hmid).mtype

theorem processLine_codecs (h : processLine loop line = some loop') :
    ∃ ws, codecWrites loop'.mtype line = some ws ∧ CodecStep loop ws loop' := by
  obtain ⟨mid, hmid, ⟨hs, rfl⟩ | ⟨hs, h⟩⟩ := processLine_cases h
  · have hf := sessionLine_step hmid
    exact ⟨[], by rw [codecWrites, if_pos hs], hf.negotiated, hf.internal, hf.parsed⟩
  · have hf := sessionLine_step hmid
    obtain ⟨ws, hws, hparsed⟩ := codecLine_parsed hs h
    obtain ⟨_, _, _, rfl⟩ := codecLine_frame h
    exact ⟨ws, hws, hf.negotiated, hf.internal, hparsed.trans (by rw [hf.parsed])⟩

/-- What a reader of lines says along the lines, each with its section. -/
def overLines {γ : Type*} (note : MediaType → Text → Option (List γ)) :
    MediaType → List Text → Option (List γ)
  | _, [] => some []
  | mtype, line :: lines => do
    return (← note (lineMedia mtype line) line) ++ (← overLines note (lineMedia mtype line) lines)

/-- If a line does `R` with what is read from it, the lines do `R` with what is read from
all of them. -/
theorem overLines_of_run {γ : Type*} {note : MediaType → Text → Option (List γ)}
    (R : Loop → List γ → Loop → Prop) (hnil : ∀ loop, R loop [] loop)
    (happ : ∀ {loop a mid b loop'}, R loop a mid → R mid b loop' → R loop (a ++ b) loop')
    (hstep : ∀ {loop line loop'}, processLine loop line = some loop' →
      ∃ a, note loop'.mtype line = some a ∧ R loop a loop')
    (h : lines.foldlM processLine loop = some loop') :
    ∃ all, overLines note loop.mtype lines = some all ∧ R loop all loop' := by
  induction lines generalizing loop with
  | nil =>
    obtain rfl := Option.some.inj h
    exact ⟨[], rfl, hnil loop⟩
  | cons line lines ih =>
    rw [List.foldlM_cons, Option.bind_eq_bind, Option.bind_eq_some_iff] at h
    obtain ⟨mid, hmid, h⟩ := h
    obtain ⟨a, ha, hra⟩ := hstep hmid
    obtain ⟨all, hall, hr⟩ := ih h
    rw [processLine_mtype hmid] at ha hall
    refine ⟨a ++ all, ?_, happ hra hr⟩
    rw [overLines, ha, hall]
    rfl

/-- What the reader says along all lines of a description. -/
def overText {γ : Type*} (note : MediaType → Text → Option (List γ)) (sdp media : Text) : List γ :=
  (overLines note (mediaOf media) (getlines sdp)).getD []

theorem overText_of_run {γ : Type*} {note : MediaType → Text → Option (List γ)}
    (R : Loop → List γ → Loop → Prop) (hnil : ∀ loop, R loop [] loop)
    (happ : ∀ {loop a mid b loop'}, R loop a mid → R mid b loop' → R loop (a ++ b) loop')
    (hstep : ∀ {loop line loop'}, processLine loop line = some loop' →
      ∃ a, note loop'.mtype line = some a ∧ R loop a loop')
    {info : SdpInfo} {sdp media : Text} (h : readLines info sdp media = some loop) :
    R ⟨info, -1, mediaOf media⟩ (overText note sdp media) loop := by
  obtain ⟨all, hall, hr⟩ := overLines_of_run R hnil happ hstep h
  rwa [overText, hall]

/-- The codecs that a description describes. -/
def describedCodecs (sdp media : Text) : StdMap UInt32 RtpMap :=
  applyAll .empty (overText codecWrites sdp media)

/-- The lines leave what the negotiation writes, and make their writes to the codecs. -/
theorem readLines_codecs {info : SdpInfo} {sdp media : Text}
    (h : readLines info sdp media = some loop) :
    CodecStep ⟨info, -1, mediaOf media⟩ (overText codecWrites sdp media) loop :=
  overText_of_run CodecStep (fun _ => ⟨rfl, rfl, rfl⟩)
    (fun ha hb => ⟨hb.negotiated.trans ha.negotiated, hb.internal.trans ha.internal, by
      rw [hb.parsed, ha.parsed, applyAll_append]⟩)
    processLine_codecs h

/-- The usernames of a line; the flag says whether it is the one of audio. -/
def usersLine (mtype : MediaType) (line : Text) : Option (List (Bool × Text)) :=
  line.on Marker.iceUser (fun users => do
    return users ++ [(decide (mtype = .audio), ← parseCredential line)]) []

def setUser (users : Text × Text) (user : Bool × Text) : Text × Text :=
  if user.1 then (users.1, user.2) else (user.2, users.2)

/-- The usernames of video and audio that a description describes. -/
def describedUsers (sdp media : Text) : Text × Text :=
  (overText usersLine sdp media).foldl setUser ([], [])

def SdpInfo.users (info : SdpInfo) : Text × Text := (info.iceVideoUsername, info.iceAudioUsername)

theorem on_iceUser {video audio video' audio' : Text}
    (hv : line.on Marker.iceUser (setVideoCredential line mtype) video = some video')
    (ha : line.on Marker.iceUser (setAudioCredential line mtype) audio = some audio') :
    ∃ users, usersLine mtype line = some users ∧
      (video', audio') = users.foldl setUser (video, audio) := by
  rw [Text.on, setVideoCredential] at hv
  rw [Text.on, setAudioCredential] at ha
  rw [usersLine, Text.on]
  split_ifs at hv ha ⊢ with hm hsec
  · cases hv
    exact ⟨[(true, audio')], by simp [ha, hsec], rfl⟩
  · cases ha
    exact ⟨[(false, video')], by simp [hv, hsec], rfl⟩
  · cases hv
    cases ha
    exact ⟨[], rfl, rfl⟩

theorem processLine_users (h : processLine loop line = some loop') : ∃ users,
    usersLine loop'.mtype line = some users ∧
      loop'.info.users = users.foldl setUser loop.info.users := by
  obtain ⟨mid, hmid, ⟨-, rfl⟩ | ⟨-, h⟩⟩ := processLine_cases h
  · have hs := sessionLine_step hmid
    exact on_iceUser hs.videoUsername hs.audioUsername
  · have hs := sessionLine_step hmid
    obtain ⟨_, _, _, rfl⟩ := codecLine_frame h
    exact on_iceUser hs.videoUsername hs.audioUsername

theorem readLines_users {info : SdpInfo} {sdp media : Text}
    (h : readLines info sdp media = some loop) :
    loop.info.users = (overText usersLine sdp media).foldl setUser info.users :=
  overText_of_run (fun loop users loop' => loop'.info.users = users.foldl setUser loop.info.users)
    (fun _ => rfl) (fun ha hb => by rw [hb, ha, List.foldl_append]) processLine_users h

/-- Every codec stands under its payload type. -/
def Keyed (parsed : StdMap UInt32 RtpMap) : Prop :=
  ∀ ⦃pt codec⦄, parsed.find pt = some codec → codec.payloadType = pt

variable {parsed : StdMap UInt32 RtpMap}

theorem keyed_empty : Keyed .empty := by
  intro pt codec h
  cases h

theorem Keyed.codecOf (h : Keyed parsed) (pt : UInt32) : (codecOf parsed pt).payloadType = pt := by
  rw [Sdp.codecOf]
  cases hf : parsed.find pt with
  | none => rfl
  | some codec => exact h hf

theorem Keyed.apply (h : Keyed parsed) (w : CodecWrite) : Keyed (apply parsed w) := by
  intro pt codec hf
  rw [CodecWrite.apply, StdMap.find_assign] at hf
  split_ifs at hf with hpt
  · rw [← Option.some.inj hf, hpt]
    cases w with
    | rtpmap => rfl
    | feedback | parameter => exact h.codecOf _
  · exact h hf

theorem Keyed.applyAll (h : Keyed parsed) (ws : List CodecWrite) : Keyed (applyAll parsed ws) := by
  induction ws generalizing parsed with
  | nil => exact h
  | cons w ws ih => exact ih (h.apply w)

end KkLicode.Sdp
