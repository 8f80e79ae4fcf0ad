import KkLicode.Sdp.Renegotiation

/-! Which texts the lines of a description leave. A line has no line end, and the pieces it
is split into have none of the separators, the last piece apart. So whatever the lines are,
no line end comes back, no separator in the name of a codec, and no end of a credential. -/

namespace KkLicode.Sdp

open Base Folds CodecWrite

variable {loop loop' : Loop} {line : Text} {mtype : MediaType} {codec : RtpMap} {info : SdpInfo}
  {parsed : StdMap UInt32 RtpMap} {ws : List CodecWrite} {sdp media : Text}

/-- A piece has no character that its line does not have. -/
theorem notMem_of_piece {delims v : Text} {c : Char} {maxSplits i : ℕ} (hc : c ∉ line)
    (h : (splitOneOf line delims maxSplits)[i]? = some v) : c ∉ v := fun hm =>
  hc ((infix_of_mem_splitFrom (List.mem_of_getElem? h)).subset hm)

theorem Text.notMem_cStr {s : Text} {c : Char} (hc : c ∉ s) : c ∉ s.cStr := fun hm =>
  hc ((List.takeWhile_prefix _).subset hm)

theorem Text.notMem_popBack {s t : Text} {c : Char} (hc : c ∉ s) (h : s.popBack = some t) : c ∉ t := by
  rw [popBack] at h
  split_ifs at h
  exact fun hm => hc (List.mem_of_mem_dropLast (Option.some.inj h ▸ hm))

/-! ### The codecs -/

/-- A write of one line. -/
def CodecWrite.OfLine : CodecWrite → Prop
  | rtpmap _ name _ _ => name.Avoids " :/\n".toList
  | feedback _ type => '\n' ∉ type
  | parameter _ option value => '\n' ∉ option ∧ '\n' ∉ value

/-- The texts of the codec come from lines. -/
structure RtpMap.OfLines (codec : RtpMap) : Prop where
  name : codec.encodingName.Avoids " :/\n".toList
  feedback : ∀ type ∈ codec.feedbackTypes, '\n' ∉ type
  parameters : ∀ option value, codec.formatParameters.find option = some value →
    '\n' ∉ option ∧ '\n' ∉ value

theorem ofLine_rtpmapWrites (h : rtpmapWrites mtype line = some ws) : ∀ w ∈ ws, w.OfLine := by
  rw [rtpmapWrites, Text.on] at h
  split_ifs at h
  · obtain ⟨⟨pt, name, clock⟩, hparse, h⟩ := Option.bind_eq_some_iff.mp h
    obtain ⟨_, -, hparse⟩ := Option.bind_eq_some_iff.mp hparse
    obtain ⟨_, hname, hparse⟩ := Option.bind_eq_some_iff.mp hparse
    obtain ⟨_, -, hparse⟩ := Option.bind_eq_some_iff.mp hparse
    obtain ⟨-, rfl, -⟩ := Prod.mk.inj (Option.some.inj hparse)
    rw [← Option.some.inj h]
    simpa [OfLine] using avoids_of_splitFrom .nil (.inr (by decide)) hname
  · rw [← Option.some.inj h]
    simp

theorem ofLine_feedbackWrites (hline : '\n' ∉ line) (h : feedbackWrites line = some ws) :
    ∀ w ∈ ws, w.OfLine := by
  rw [feedbackWrites, Text.on] at h
  split_ifs at h
  · obtain ⟨⟨pt, type⟩, hparse, h⟩ := Option.bind_eq_some_iff.mp h
    obtain ⟨_, -, hparse⟩ := Option.bind_eq_some_iff.mp hparse
    obtain ⟨part, hpart, hparse⟩ := Option.bind_eq_some_iff.mp hparse
    obtain ⟨_, hpop, hparse⟩ := Option.bind_eq_some_iff.mp hparse
    obtain ⟨-, rfl⟩ := Prod.mk.inj (Option.some.inj hparse)
    rw [← Option.some.inj h]
    simpa [OfLine] using Text.notMem_popBack (notMem_of_piece hline hpart) hpop
  · rw [← Option.some.inj h]
    simp

theorem ofLine_parameterWrites (hline : '\n' ∉ line) (h : parameterWrites line = some ws) :
    ∀ w ∈ ws, w.OfLine := by
  rw [parameterWrites, Text.on] at h
  split_ifs at h
  · rw [← Option.some.inj h]
    simp
  · obtain ⟨⟨pt, option, value⟩, hparse, h⟩ := Option.bind_eq_some_iff.mp h
    have htexts : '\n' ∉ option ∧ '\n' ∉ value := by
      obtain ⟨_, -, hparse⟩ := Option.bind_eq_some_iff.mp hparse
      obtain ⟨part, hpart, hparse⟩ := Option.bind_eq_some_iff.mp hparse
      have hpart := Text.notMem_cStr (notMem_of_piece hline hpart)
      split at hparse
      · obtain ⟨_, hpop, hparse⟩ := Option.bind_eq_some_iff.mp hparse
        obtain ⟨-, rfl, rfl⟩ := Prod.mk.inj (Option.some.inj hparse)
        exact ⟨by decide, Text.notMem_popBack hpart hpop⟩
      · rename_i value' hvalue
        obtain ⟨_, hpop, hparse⟩ := Option.bind_eq_some_iff.mp hparse
        obtain ⟨-, rfl, rfl⟩ := Prod.mk.inj (Option.some.inj hparse)
        exact ⟨hpart, Text.notMem_popBack (Text.notMem_cStr (notMem_of_piece hline hvalue)) hpop⟩
    rw [← Option.some.inj h]
    simpa [OfLine] using htexts
  · rw [← Option.some.inj h]
    simp

theorem ofLine_codecWrites (hline : '\n' ∉ line) (h : codecWrites mtype line = some ws) :
    ∀ w ∈ ws, w.OfLine := by
  rw [codecWrites] at h
  split_ifs at h
  · rw [← Option.some.inj h]
    simp
  · obtain ⟨_, hrtpmap, h⟩ := Option.bind_eq_some_iff.mp h
    obtain ⟨_, hfeedback, h⟩ := Option.bind_eq_some_iff.mp h
    obtain ⟨_, hparameter, h⟩ := Option.bind_eq_some_iff.mp h
    rw [← Option.some.inj h, List.forall_mem_append, List.forall_mem_append]
    exact ⟨⟨ofLine_rtpmapWrites hrtpmap, ofLine_feedbackWrites hline hfeedback⟩,
      ofLine_parameterWrites hline hparameter⟩

theorem RtpMap.OfLines.edit (h : codec.OfLines) {w : CodecWrite} (hw : w.OfLine) :
    (w.edit codec).OfLines := by
  cases w with
  | rtpmap => exact ⟨hw, h.feedback, h.parameters⟩
  | feedback =>
    refine ⟨h.name, List.forall_mem_append.mpr ⟨h.feedback, ?_⟩, h.parameters⟩
    simpa using show '\n' ∉ _ from hw
  | parameter pt option value =>
    refine ⟨h.name, h.feedback, fun option' value' hfind => ?_⟩
    rw [CodecWrite.edit, StdMap.find_assign] at hfind
    split_ifs at hfind with ho
    · rw [ho, ← Option.some.inj hfind]
      exact hw
    · exact h.parameters option' value' hfind

theorem ofLines_applyAll (h : ∀ pt, (codecOf parsed pt).OfLines) (hws : ∀ w ∈ ws, w.OfLine) (pt : UInt32) :
    (codecOf (applyAll parsed ws) pt).OfLines := by
  induction ws generalizing parsed with
  | nil => exact h pt
  | cons w ws ih =>
    obtain ⟨hw, hws⟩ := List.forall_mem_cons.mp hws
    refine ih (fun pt' => ?_) hws
    rw [apply, codecOf_assign]
    split_ifs
    · exact (h w.pt).edit hw
    · exact h pt'

/-! ### All members -/

/-- The texts that are compared come from lines. -/
structure SdpInfo.OfLines (info : SdpInfo) : Prop where
  codecs : ∀ pt, (codecOf info.payloadParsedMap pt).OfLines
  extensions : ∀ extension ∈ info.extMapVector, '\n' ∉ extension.uri
  videoUsername : info.iceVideoUsername.Avoids "\r\n".toList
  audioUsername : info.iceAudioUsername.Avoids "\r\n".toList
  videoPassword : info.iceVideoPassword.Avoids "\r\n".toList
  audioPassword : info.iceAudioPassword.Avoids "\r\n".toList

theorem SdpInfo.ofLines_new (internal : List RtpMap) : (SdpInfo.new internal).OfLines where
  codecs _ := ⟨.nil, fun _ ht => absurd ht List.not_mem_nil, fun _ _ hv => by cases hv⟩
  extensions _ he := absurd he List.not_mem_nil
  videoUsername := .nil
  audioUsername := .nil
  videoPassword := .nil
  audioPassword := .nil

/-- A credential ends before a carriage return. -/
theorem avoids_parseCredential {credential : Text} (hline : '\n' ∉ line)
    (h : parseCredential line = some credential) : credential.Avoids "\r\n".toList := by
  obtain ⟨value, hvalue, h⟩ := Option.bind_eq_some_iff.mp h
  have hreturn := avoids_of_splitFrom .nil (.inr (by decide)) h
  have hend := notMem_of_piece (notMem_of_piece hline hvalue) h
  intro c hc hm
  have hm : c ∈ ['\r', '\n'] := hm
  simp only [List.mem_cons, List.not_mem_nil, or_false] at hm
  rcases hm with rfl | rfl
  · exact hreturn _ hc (by decide)
  · exact hend hc

theorem avoids_setVideoCredential {marker old new : Text} (hline : '\n' ∉ line)
    (h : line.on marker (setVideoCredential line mtype) old = some new)
    (hold : old.Avoids "\r\n".toList) : new.Avoids "\r\n".toList := by
  rw [Text.on, setVideoCredential] at h
  split_ifs at h
  · exact Option.some.inj h ▸ hold
  · exact avoids_parseCredential hline h
  · exact Option.some.inj h ▸ hold

theorem avoids_setAudioCredential {marker old new : Text} (hline : '\n' ∉ line)
    (h : line.on marker (setAudioCredential line mtype) old = some new)
    (hold : old.Avoids "\r\n".toList) : new.Avoids "\r\n".toList := by
  rw [Text.on, setAudioCredential] at h
  split_ifs at h
  · exact avoids_parseCredential hline h
  · exact Option.some.inj h ▸ hold
  · exact Option.some.inj h ▸ hold

theorem notMem_lineExtensions {added : List ExtMap} (hline : '\n' ∉ line)
    (h : lineExtensions mtype line = some added) : ∀ extension ∈ added, '\n' ∉ extension.uri := by
  rw [lineExtensions, Text.on, pushExtmap] at h
  split_ifs at h
  · simp [← Option.some.inj h]
  · simp [← Option.some.inj h]
  · obtain ⟨_, -, h⟩ := Option.bind_eq_some_iff.mp h
    obtain ⟨uri, huri, h⟩ := Option.bind_eq_some_iff.mp h
    rw [← Option.some.inj h]
    have huri := notMem_of_piece hline huri
    simpa using fun hm => huri (List.mem_of_mem_dropLast hm)
  · simp [← Option.some.inj h]

theorem SdpInfo.OfLines.processLine (hi : loop.info.OfLines) (hline : '\n' ∉ line)
    (h : processLine loop line = some loop') : loop'.info.OfLines := by
  obtain ⟨ws, hws, hcodecs⟩ := processLine_codecs h
  obtain ⟨added, hadded, hext⟩ := processLine_extensions h
  obtain ⟨mid, hmid, hcases⟩ := processLine_cases h
  have hs := sessionLine_step hmid
  have hkeep : loop'.info.iceVideoUsername = mid.info.iceVideoUsername ∧
      loop'.info.iceAudioUsername = mid.info.iceAudioUsername ∧
      loop'.info.iceVideoPassword = mid.info.iceVideoPassword ∧
      loop'.info.iceAudioPassword = mid.info.iceAudioPassword := by
    obtain ⟨-, rfl⟩ | ⟨-, hcodec⟩ := hcases
    · exact ⟨rfl, rfl, rfl, rfl⟩
    · obtain ⟨_, _, _, rfl⟩ := codecLine_frame hcodec
      exact ⟨rfl, rfl, rfl, rfl⟩
  obtain ⟨hvu, hau, hvp, hap⟩ := hkeep
  constructor
  case codecs =>
    rw [hcodecs.parsed]
    exact ofLines_applyAll hi.codecs (ofLine_codecWrites hline hws)
  case extensions =>
    rw [hext, List.forall_mem_append]
    exact ⟨hi.extensions, notMem_lineExtensions hline hadded⟩
  case videoUsername => exact hvu ▸ avoids_setVideoCredential hline hs.videoUsername hi.videoUsername
  case audioUsername => exact hau ▸ avoids_setAudioCredential hline hs.audioUsername hi.audioUsername
  case videoPassword => exact hvp ▸ avoids_setVideoCredential hline hs.videoPassword hi.videoPassword
  case audioPassword => exact hap ▸ avoids_setAudioCredential hline hs.audioPassword hi.audioPassword

/-- The lines of a description keep that all texts come from lines. -/
theorem SdpInfo.OfLines.readLines (hi : info.OfLines) (h : readLines info sdp media = some loop) :
    loop.info.OfLines :=
  foldlM_invariant (·.info.OfLines)
    (fun _ hline hstep hs => hs.processLine (notMem_of_mem_getlines hline) hstep) h hi

/-- Filling the gaps copies texts from the other section. -/
theorem SdpInfo.OfLines.fill (hi : info.OfLines) :
    info.fillCredentials.fillCandidates.fillSsrcList.OfLines := by
  have hcredentials : info.fillCredentials.OfLines := by
    rw [fillCredentials]
    split_ifs
    · exact { hi with videoUsername := hi.audioUsername, videoPassword := hi.audioPassword }
    · exact { hi with audioUsername := hi.videoUsername, audioPassword := hi.videoPassword }
    · exact hi
  rw [fillSsrcList]
  split_ifs <;> exact { hcredentials with }

/-- Once filled, both sections have a username. -/
theorem SdpInfo.fill_ne_nil (h : ¬ info.NoCredentials) :
    info.fillCredentials.fillCandidates.fillSsrcList.iceVideoUsername ≠ [] ∧
      info.fillCredentials.fillCandidates.fillSsrcList.iceAudioUsername ≠ [] := by
  have hcredentials : info.fillCredentials.iceVideoUsername ≠ [] ∧
      info.fillCredentials.iceAudioUsername ≠ [] := by
    rw [NoCredentials, not_and_or] at h
    rw [fillCredentials]
    split_ifs with hv ha
    · exact ⟨h.resolve_left (not_not.mpr hv), h.resolve_left (not_not.mpr hv)⟩
    · exact ⟨hv, hv⟩
    · exact ⟨hv, ha⟩
  rw [fillSsrcList]
  split_ifs <;> exact hcredentials

end KkLicode.Sdp
