import KkLicode.Sdp.PrintedSections

/-! What a new description reads from the text of a local one. -/

namespace KkLicode.Sdp

open Base CodecWrite

variable {internal : List RtpMap} {info : SdpInfo} {msidtemp media username password : Text}

/-! ### The calls for a local description -/

/-- What the calls write: both directions, and nothing of the transport. -/
structure SdpInfo.Made (internal : List RtpMap) (info : SdpInfo) : Prop extends Local info where
  internal : info.internalPayloadVector = internal
  videoDirection : info.videoDirection.isSome
  audioDirection : info.audioDirection.isSome

theorem SdpInfo.Made.setCredentials (h : info.Made internal) (mtype : MediaType) :
    (info.setCredentials username password mtype).Made internal := by
  cases mtype <;> exact ⟨⟨h.candidates, h.cryptos, h.fingerprint⟩, h.internal, h.videoDirection,
    h.audioDirection⟩

theorem LocalSdp.made (l : LocalSdp) : l.info.Made l.internalPayloadVector := by
  rw [LocalSdp.info]
  refine List.foldlRecOn l.credentials _ ?_ fun info h _ _ => h.setCredentials _
  cases l.origin <;> exact ⟨⟨rfl, rfl, rfl⟩, rfl, rfl, rfl⟩

/-! ### The text -/

/-- What the sections say. -/
def SdpInfo.readSections (info : SdpInfo) (r : Reading) : Reading :=
  let r := if info.hasAudio then readAudio info r else r
  if info.hasVideo then readVideo info r else r

/-- A section is printed and read, or is not there. -/
theorem reads_section {print : Option (List Text)} {f : Reading → Reading} {has : Bool}
    (h : has → ∃ lines, print = some lines ∧ Reads lines f) :
    ∃ lines, (if has then print else some []) = some lines ∧
      Reads lines fun r => if has then f r else r := by
  cases has with
  | false => exact ⟨[], rfl, .nil⟩
  | true => exact h rfl

theorem SdpInfo.sdpLines_eq (info : SdpInfo) (msidtemp : Text) : info.sdpLines msidtemp =
    (info.sessionLines msidtemp).bind fun session =>
      (if info.hasAudio then info.audioLines msidtemp else some []).bind fun audio =>
        (if info.hasVideo then info.videoLines msidtemp else some []).bind fun video =>
          some (session ++ audio ++ video) := by
  rw [SdpInfo.sdpLines]
  split_ifs <;> rfl

theorem read_sdpLines (hm : info.Made internal) (hu : info.Unmixed) (h : info.Printable)
    (hlabel : msidtemp.Bare) :
    ∃ lines, info.sdpLines msidtemp = some lines ∧ (∀ line ∈ lines, '\n' ∉ line) ∧
      ∀ loop : Loop, loop.info.bundleTags = [] → ∃ loop', lines.foldlM processLine loop = some loop' ∧
        loop'.reading = info.readSections loop.reading := by
  obtain ⟨session, hsession, hend, hread⟩ := read_sessionLines hlabel h.bundle fun hb tag ht =>
    hu.tags tag (List.mem_filter.mpr ⟨ht, by simp [hb]⟩)
  obtain ⟨audio, haudio, hr⟩ := reads_section fun ha : info.hasAudio =>
    reads_audioLines hm.toLocal hu h hlabel ha hm.audioDirection
  obtain ⟨video, hvideo, hr'⟩ := reads_section fun hv : info.hasVideo =>
    reads_videoLines hm.toLocal hu h hlabel hv hm.videoDirection
  have hsections := hr.append hr'
  refine ⟨session ++ audio ++ video, ?_, ?_, fun loop hloop => ?_⟩
  · rw [SdpInfo.sdpLines_eq, hsession, haudio, hvideo]
    rfl
  · rw [List.append_assoc]
    exact List.forall_mem_append.mpr ⟨hend, hsections.1⟩
  · obtain ⟨mid, hmid, hrmid, htags⟩ := hread loop hloop
    obtain ⟨loop', hloop', hrloop, -⟩ := hsections.2 mid htags
    refine ⟨loop', ?_, ?_⟩
    · rw [List.append_assoc, List.foldlM_append, hmid]
      exact hloop'
    · rw [hrloop, hrmid]
      rfl

/-- The text of a local description is read. -/
theorem readLines_getSdp (hm : info.Made internal) (hu : info.Unmixed) (h : info.Printable)
    (hlabel : msidtemp.Bare) (media : Text) :
    ∃ info' text loop, info.getSdp msidtemp = some (info', text) ∧
      readLines (SdpInfo.new internal) text media = some loop ∧
        loop.reading = info.readSections (Loop.mk (SdpInfo.new internal) (-1) (mediaOf media)).reading := by
  obtain ⟨lines, hlines, hend, hread⟩ := read_sdpLines hm hu h hlabel
  obtain ⟨loop, hloop, hr⟩ := hread ⟨SdpInfo.new internal, -1, mediaOf media⟩ rfl
  obtain ⟨info', hget⟩ : ∃ info', info.getSdp msidtemp = some (info', SdpInfo.printLines lines) :=
    ⟨_, by rw [SdpInfo.getSdp, hlines]; rfl⟩
  refine ⟨info', SdpInfo.printLines lines, loop, hget, ?_, hr⟩
  rw [readLines, SdpInfo.printLines, getlines_flatMap hend]
  exact hloop

end KkLicode.Sdp
