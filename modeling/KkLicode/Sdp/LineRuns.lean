import KkLicode.Base.Folds
import KkLicode.Sdp.LineSteps

/-! Reading the same lines from another state. A line is defined or not whatever was read
before, but for the first audio stream and for the loop over the bundle tags; so lines
that were read once can be read again as long as there are no tags. -/

namespace KkLicode.Sdp

open Base Folds CodecWrite

variable {loop loop' again : Loop} {line marker : Text} {lines : List Text} {mtype : MediaType}

theorem isSome_bind_iff {α β : Type*} {x : Option α} {f : α → Option β} :
    (x.bind f).isSome ↔ ∃ a, x = some a ∧ (f a).isSome := by
  cases x <;> simp

theorem on_isSome_iff {α : Type*} {handler : α → Option α} {x : α} :
    (line.on marker handler x).isSome ↔ (line.Has marker → (handler x).isSome) := by
  rw [Text.on]
  split_ifs with hm <;> simp [hm]

/-- The handlers up to the ones of the codecs are defined on a line. -/
structure SessionDefined (loop : Loop) (line : Text) : Prop where
  fingerprint : (line.on Marker.fp (fun _ => parseFingerprint line) loop.info.fingerprint).isSome
  dtlsRole : (line.on Marker.setup (fun _ => parseSetup line) loop.info.dtlsRole).isSome
  isBundle : (line.on Marker.group (parseGroup line) loop.info.isBundle).isSome
  candidates : (line.on Marker.cand (pushCandidate line (lineMedia loop.mtype line))
    loop.info.candidateVector).isSome
  cryptos : (line.on Marker.crypto (pushCrypto line (lineMedia loop.mtype line))
    loop.info.cryptoVector).isSome
  videoUsername : (line.on Marker.iceUser (setVideoCredential line (lineMedia loop.mtype line))
    loop.info.iceVideoUsername).isSome
  audioUsername : (line.on Marker.iceUser (setAudioCredential line (lineMedia loop.mtype line))
    loop.info.iceAudioUsername).isSome
  videoPassword : (line.on Marker.icePass (setVideoCredential line (lineMedia loop.mtype line))
    loop.info.iceVideoPassword).isSome
  audioPassword : (line.on Marker.icePass (setAudioCredential line (lineMedia loop.mtype line))
    loop.info.iceAudioPassword).isSome
  tags (isBundle : Bool) : line.on Marker.group (parseGroup line) loop.info.isBundle = some isBundle →
    (line.on Marker.mid (setMid line (lineMedia loop.mtype line) isBundle)
      (loop.info.bundleTags ++ groupTags line)).isSome
  videoSsrcs : (line.on Marker.ssrctag (addSsrc line (lineMedia loop.mtype line)
    loop.info.videoRtxSsrcMap) loop.info.videoSsrcList).isSome
  audioSsrc : (line.on Marker.ssrctag (setAudioSsrc line (lineMedia loop.mtype line))
    loop.info.audioSsrc).isSome

/-- A line is handled where every handler is defined. -/
theorem sessionDefined_iff : (sessionLine loop line).isSome ↔ SessionDefined loop line := by
  constructor
  · intro h
    obtain ⟨_, hfp, h⟩ := isSome_bind_iff.mp h
    obtain ⟨_, hsetup, h⟩ := isSome_bind_iff.mp h
    obtain ⟨isBundle, hgroup, h⟩ := isSome_bind_iff.mp h
    obtain ⟨_, hcand, h⟩ := isSome_bind_iff.mp h
    obtain ⟨_, hcrypto, h⟩ := isSome_bind_iff.mp h
    obtain ⟨_, hvideo, h⟩ := isSome_bind_iff.mp h
    obtain ⟨_, haudio, h⟩ := isSome_bind_iff.mp h
    obtain ⟨_, hvideoPass, h⟩ := isSome_bind_iff.mp h
    obtain ⟨_, haudioPass, h⟩ := isSome_bind_iff.mp h
    obtain ⟨_, hmid, h⟩ := isSome_bind_iff.mp h
    obtain ⟨_, hssrcs, h⟩ := isSome_bind_iff.mp h
    obtain ⟨_, hssrc, -⟩ := isSome_bind_iff.mp h
    exact {
      fingerprint := Option.isSome_of_eq_some hfp
      dtlsRole := Option.isSome_of_eq_some hsetup
      isBundle := Option.isSome_of_eq_some hgroup
      candidates := Option.isSome_of_eq_some hcand
      cryptos := Option.isSome_of_eq_some hcrypto
      videoUsername := Option.isSome_of_eq_some hvideo
      audioUsername := Option.isSome_of_eq_some haudio
      videoPassword := Option.isSome_of_eq_some hvideoPass
      audioPassword := Option.isSome_of_eq_some haudioPass
      tags := fun _ hgroup' => by
        rw [Option.some.inj (hgroup'.symm.trans hgroup)]
        exact Option.isSome_of_eq_some hmid
      videoSsrcs := Option.isSome_of_eq_some hssrcs
      audioSsrc := Option.isSome_of_eq_some hssrc }
  · intro h
    obtain ⟨_, hfp⟩ := Option.isSome_iff_exists.mp h.fingerprint
    obtain ⟨_, hsetup⟩ := Option.isSome_iff_exists.mp h.dtlsRole
    obtain ⟨isBundle, hgroup⟩ := Option.isSome_iff_exists.mp h.isBundle
    obtain ⟨_, hcand⟩ := Option.isSome_iff_exists.mp h.candidates
    obtain ⟨_, hcrypto⟩ := Option.isSome_iff_exists.mp h.cryptos
    obtain ⟨_, hvideo⟩ := Option.isSome_iff_exists.mp h.videoUsername
    obtain ⟨_, haudio⟩ := Option.isSome_iff_exists.mp h.audioUsername
    obtain ⟨_, hvideoPass⟩ := Option.isSome_iff_exists.mp h.videoPassword
    obtain ⟨_, haudioPass⟩ := Option.isSome_iff_exists.mp h.audioPassword
    obtain ⟨_, hmid⟩ := Option.isSome_iff_exists.mp (h.tags isBundle hgroup)
    obtain ⟨_, hssrcs⟩ := Option.isSome_iff_exists.mp h.videoSsrcs
    obtain ⟨_, hssrc⟩ := Option.isSome_iff_exists.mp h.audioSsrc
    exact isSome_bind_iff.mpr ⟨_, hfp, isSome_bind_iff.mpr ⟨_, hsetup, isSome_bind_iff.mpr
      ⟨_, hgroup, isSome_bind_iff.mpr ⟨_, hcand, isSome_bind_iff.mpr ⟨_, hcrypto, isSome_bind_iff.mpr
      ⟨_, hvideo, isSome_bind_iff.mpr ⟨_, haudio, isSome_bind_iff.mpr ⟨_, hvideoPass,
      isSome_bind_iff.mpr ⟨_, haudioPass, isSome_bind_iff.mpr ⟨_, hmid, isSome_bind_iff.mpr
      ⟨_, hssrcs, isSome_bind_iff.mpr ⟨_, hssrc, rfl⟩⟩⟩⟩⟩⟩⟩⟩⟩⟩⟩⟩

/-- A handler is defined on a line where another one is that handles the same marker. -/
theorem Text.on_defined {α β : Type*} {handler : α → Option α} {x : α} (handler' : β → Option β)
    (y : β) (h : (line.on marker handler x).isSome)
    (hh : ∀ v, handler x = some v → ∃ w, handler' y = some w) :
    (line.on marker handler' y).isSome := by
  refine on_isSome_iff.mpr fun hm => ?_
  obtain ⟨v, hv⟩ := Option.isSome_iff_exists.mp (on_isSome_iff.mp h hm)
  obtain ⟨w, hw⟩ := hh v hv
  exact Option.isSome_of_eq_some hw

/-- A handler that is defined whatever its member is, or never. -/
def Uniform {α : Type*} (handler : α → Option α) : Prop :=
  ∀ ⦃x v⦄, handler x = some v → ∀ y, ∃ w, handler y = some w

theorem Uniform.on {α : Type*} {handler : α → Option α} (hu : Uniform handler) {x : α}
    (h : (line.on marker handler x).isSome) (y : α) : (line.on marker handler y).isSome :=
  Text.on_defined handler y h fun _ h => hu h y

theorem uniform_const {α : Type*} (parsed : Option α) : Uniform fun _ => parsed :=
  fun _ v h _ => ⟨v, h⟩

theorem uniform_bind {α β : Type*} (parsed : Option β) (f : α → β → α) :
    Uniform fun member => parsed.bind fun value => some (f member value) := by
  intro member v h member'
  obtain ⟨value, hvalue, -⟩ := Option.bind_eq_some_iff.mp h
  exact ⟨f member' value, Option.bind_eq_some_iff.mpr ⟨value, hvalue, rfl⟩⟩

theorem uniform_parseGroup : Uniform (parseGroup line) :=
  uniform_bind _ _

theorem uniform_pushCandidate : Uniform (pushCandidate line mtype) :=
  uniform_bind _ _

theorem uniform_pushCrypto : Uniform (pushCrypto line mtype) := by
  intro cryptos _ h cryptos'
  obtain ⟨suite, hsuite, h⟩ := Option.bind_eq_some_iff.mp h
  obtain ⟨key, hkey, -⟩ := Option.bind_eq_some_iff.mp h
  exact ⟨_, Option.bind_eq_some_iff.mpr ⟨suite, hsuite,
    Option.bind_eq_some_iff.mpr ⟨key, hkey, rfl⟩⟩⟩

theorem uniform_setVideoCredential : Uniform (setVideoCredential line mtype) := by
  intro credential v h credential'
  rw [setVideoCredential] at h ⊢
  split_ifs at h ⊢
  · exact ⟨credential', rfl⟩
  · exact ⟨v, h⟩

theorem uniform_setAudioCredential : Uniform (setAudioCredential line mtype) := by
  intro credential v h credential'
  rw [setAudioCredential] at h ⊢
  split_ifs at h ⊢
  · exact ⟨v, h⟩
  · exact ⟨credential', rfl⟩

theorem uniform_pushExtmap : Uniform (pushExtmap line mtype) := by
  intro extensions _ h extensions'
  rw [pushExtmap] at h ⊢
  split_ifs at h ⊢
  · exact ⟨extensions', rfl⟩
  · obtain ⟨id, hid, h⟩ := Option.bind_eq_some_iff.mp h
    obtain ⟨uri, huri, -⟩ := Option.bind_eq_some_iff.mp h
    exact ⟨_, Option.bind_eq_some_iff.mpr ⟨id, hid, Option.bind_eq_some_iff.mpr ⟨uri, huri, rfl⟩⟩⟩

theorem addSsrc_defined {rtx rtx' : StdMap UInt32 UInt32} {list v : List UInt32}
    (h : addSsrc line mtype rtx list = some v) (list' : List UInt32) :
    ∃ w, addSsrc line mtype rtx' list' = some w := by
  rw [addSsrc] at h ⊢
  split_ifs at h ⊢
  · obtain ⟨ssrc, hssrc, -⟩ := Option.bind_eq_some_iff.mp h
    exact ⟨_, Option.bind_eq_some_iff.mpr ⟨ssrc, hssrc, rfl⟩⟩
  · exact ⟨list', rfl⟩

/-- The first audio stream is read again where it was read, or stays. -/
theorem setAudioSsrc_defined {ssrc ssrc' v : UInt32} (h : setAudioSsrc line mtype ssrc = some v)
    (hz : ssrc' = 0 → ssrc = 0) : ∃ w, setAudioSsrc line mtype ssrc' = some w ∧ (w = 0 → v = 0) := by
  rw [setAudioSsrc] at h ⊢
  by_cases hs' : mtype = .audio ∧ ssrc' = 0
  · rw [if_pos ⟨hs'.1, hz hs'.2⟩] at h
    exact ⟨v, by rw [if_pos hs', h], id⟩
  · refine ⟨ssrc', if_neg hs', fun h0 => ?_⟩
    rw [if_neg fun hs => hs' ⟨hs.1, h0⟩] at h
    exact (Option.some.inj h).symm.trans (hz h0)

theorem setMid_defined {tags : List BundleTag} (h : tags.length < 256) (isBundle : Bool) :
    ∃ tags', setMid line mtype isBundle tags = some tags' := by
  unfold setMid
  split
  · exact ⟨_, if_pos h⟩
  · exact ⟨_, rfl⟩

/-- The first handlers can be run again in the same section if there are few bundle tags
and no audio stream is missing that was there. -/
theorem sessionLine_defined (h : sessionLine loop line = some loop')
    (hmtype : again.mtype = loop.mtype)
    (haudio : again.info.audioSsrc = 0 → loop.info.audioSsrc = 0)
    (htags : (again.info.bundleTags ++ groupTags line).length < 256) :
    ∃ again', sessionLine again line = some again' := by
  have hd := sessionDefined_iff.mp (Option.isSome_of_eq_some h)
  refine Option.isSome_iff_exists.mp (sessionDefined_iff.mpr ?_)
  constructor
  case fingerprint => exact (uniform_const _).on hd.fingerprint _
  case dtlsRole => exact (uniform_const _).on hd.dtlsRole _
  case isBundle => exact uniform_parseGroup.on hd.isBundle _
  case candidates => exact uniform_pushCandidate.on (hmtype ▸ hd.candidates) _
  case cryptos => exact uniform_pushCrypto.on (hmtype ▸ hd.cryptos) _
  case videoUsername => exact uniform_setVideoCredential.on (hmtype ▸ hd.videoUsername) _
  case audioUsername => exact uniform_setAudioCredential.on (hmtype ▸ hd.audioUsername) _
  case videoPassword => exact uniform_setVideoCredential.on (hmtype ▸ hd.videoPassword) _
  case audioPassword => exact uniform_setAudioCredential.on (hmtype ▸ hd.audioPassword) _
  case tags =>
    intro isBundle _
    refine on_isSome_iff.mpr fun _ => ?_
    obtain ⟨tags, hmid⟩ := @setMid_defined line (lineMedia again.mtype line) _ htags isBundle
    exact Option.isSome_of_eq_some hmid
  case videoSsrcs =>
    exact Text.on_defined _ _ hd.videoSsrcs fun _ h => addSsrc_defined (hmtype ▸ h) _
  case audioSsrc =>
    exact Text.on_defined _ _ hd.audioSsrc fun _ h =>
      (setAudioSsrc_defined (hmtype ▸ h) haudio).imp fun _ hw => hw.1

theorem codecLine_defined (h : codecLine loop line = some loop')
    (hmtype : again.mtype = loop.mtype) : ∃ again', codecLine again line = some again' := by
  obtain ⟨_, hrtpmap, h⟩ := Option.bind_eq_some_iff.mp h
  obtain ⟨_, hextmap, h⟩ := Option.bind_eq_some_iff.mp h
  obtain ⟨_, hfeedback, h⟩ := Option.bind_eq_some_iff.mp h
  obtain ⟨_, hfmtp, -⟩ := Option.bind_eq_some_iff.mp h
  rw [on_processRtpmap] at hrtpmap
  rw [on_processFeedback] at hfeedback
  rw [on_processFmtp] at hfmtp
  rw [← hmtype] at hrtpmap hextmap
  obtain ⟨ws, hws, -⟩ := Option.map_eq_some_iff.mp hrtpmap
  obtain ⟨ws', hws', -⟩ := Option.map_eq_some_iff.mp hfeedback
  obtain ⟨ws'', hws'', -⟩ := Option.map_eq_some_iff.mp hfmtp
  obtain ⟨_, hextmap⟩ := Option.isSome_iff_exists.mp
    (uniform_pushExtmap.on (Option.isSome_of_eq_some hextmap) again.info.extMapVector)
  have hrtpmap := on_processRtpmap.trans (congrArg (Option.map (applyAll again.info.payloadParsedMap)) hws)
  exact ⟨_, Option.bind_eq_some_iff.mpr ⟨_, hrtpmap, Option.bind_eq_some_iff.mpr ⟨_, hextmap,
    Option.bind_eq_some_iff.mpr ⟨_, on_processFeedback.trans (congrArg _ hws'),
    Option.bind_eq_some_iff.mpr ⟨_, on_processFmtp.trans (congrArg _ hws''), rfl⟩⟩⟩⟩⟩

theorem length_setMid {tags tags' : List BundleTag} {isBundle : Bool}
    (h : line.on Marker.mid (setMid line mtype isBundle) tags = some tags') :
    tags'.length = tags.length := by
  rw [Text.on] at h
  split_ifs at h
  · unfold setMid at h
    split at h
    · split_ifs at h
      rw [← Option.some.inj h, List.length_map]
    · rw [Option.some.inj h]
  · rw [Option.some.inj h]

/-- A second run of the lines is in the same section, has an audio stream if the first one
has, and no bundle tags. -/
structure Again (loop again : Loop) : Prop where
  mtype : again.mtype = loop.mtype
  audioSsrc : again.info.audioSsrc = 0 → loop.info.audioSsrc = 0
  tags : again.info.bundleTags = []

theorem Again.sessionLine (ha : Again loop again) (htags : groupTags line = [])
    (h : sessionLine loop line = some loop') :
    ∃ again', sessionLine again line = some again' ∧ Again loop' again' := by
  obtain ⟨again', hagain⟩ := sessionLine_defined h ha.mtype ha.audioSsrc (by simp [ha.tags, htags])
  have hs := sessionLine_step h
  have hs' := sessionLine_step hagain
  have hmtype : again'.mtype = loop'.mtype := by rw [hs'.mtype, ha.mtype, hs.mtype]
  refine ⟨again', hagain, hmtype, fun h0 => ?_, ?_⟩
  · have haudio := hs.audioSsrc
    have haudio' := hs'.audioSsrc
    rw [Text.on] at haudio haudio'
    split_ifs at haudio haudio'
    · obtain ⟨w, hw, hz⟩ := setAudioSsrc_defined haudio ha.audioSsrc
      rw [hmtype, hw] at haudio'
      exact hz ((Option.some.inj haudio').trans h0)
    · rw [← Option.some.inj haudio]
      exact ha.audioSsrc ((Option.some.inj haudio').trans h0)
  · rw [← List.length_eq_zero_iff, length_setMid hs'.tags, ha.tags, htags]
    rfl

/-- Lines without bundle tags that were read once can be read again. -/
theorem Again.processLine (ha : Again loop again) (htags : groupTags line = [])
    (h : processLine loop line = some loop') :
    ∃ again', processLine again line = some again' ∧ Again loop' again' := by
  obtain ⟨mid, hmid, hcases⟩ := processLine_cases h
  obtain ⟨mid', hmid', hsame⟩ := ha.sessionLine htags hmid
  rw [Sdp.processLine, hmid', Option.bind_eq_bind, Option.bind_some]
  rcases hcases with ⟨hskip, rfl⟩ | ⟨hskip, hcodec⟩
  · rw [hsame.mtype, if_pos hskip]
    exact ⟨mid', rfl, hsame⟩
  · rw [hsame.mtype, if_neg hskip]
    obtain ⟨again', hagain⟩ := codecLine_defined hcodec hsame.mtype
    refine ⟨again', hagain, ?_⟩
    obtain ⟨_, _, _, rfl⟩ := codecLine_frame hcodec
    obtain ⟨_, _, _, rfl⟩ := codecLine_frame hagain
    exact ⟨hsame.mtype, hsame.audioSsrc, hsame.tags⟩

theorem Again.foldlM (ha : Again loop again) (htags : ∀ line ∈ lines, groupTags line = [])
    (h : lines.foldlM Sdp.processLine loop = some loop') :
    ∃ again', lines.foldlM Sdp.processLine again = some again' ∧ Again loop' again' := by
  induction lines generalizing loop again with
  | nil =>
    obtain rfl := Option.some.inj h
    exact ⟨again, rfl, ha⟩
  | cons line lines ih =>
    obtain ⟨mid, hmid, h⟩ := foldlM_cons_eq_some.mp h
    obtain ⟨hline, hlines⟩ := List.forall_mem_cons.mp htags
    obtain ⟨mid', hmid', hsame⟩ := ha.processLine hline hmid
    obtain ⟨again', hagain, hlast⟩ := ih hsame hlines h
    exact ⟨again', foldlM_cons_eq_some.mpr ⟨mid', hmid', hagain⟩, hlast⟩

end KkLicode.Sdp
