import KkLicode.Sdp.SdpLines
import Mathlib.Data.Fintype.Defs
import Mathlib.Data.Finset.Insert

/-! Lines with one marker. All markers but `SAVPF`, which only sets the profile, have an
equals sign behind their first character. A line that starts with one and has no marker
in the text behind it is read by the handler of that marker alone. -/

namespace KkLicode.Sdp

open Base

/-- The markers that choose a handler. -/
inductive Mark
  | cand | crypto | group | video | audio | mid | sendrecv | recvonly | sendonly | iceUser
  | icePass | ssrctag | ssrcgrouptag | rtpmap | rtcpmux | fp | setup | extmap | rtcpfb | fmtp | bas
  deriving DecidableEq

instance : Fintype Mark :=
  ⟨{.cand, .crypto, .group, .video, .audio, .mid, .sendrecv, .recvonly, .sendonly, .iceUser,
    .icePass, .ssrctag, .ssrcgrouptag, .rtpmap, .rtcpmux, .fp, .setup, .extmap, .rtcpfb, .fmtp,
    .bas}, fun m => by cases m <;> decide⟩

def Mark.text : Mark → Text
  | cand => Marker.cand
  | crypto => Marker.crypto
  | group => Marker.group
  | video => Marker.video
  | audio => Marker.audio
  | mid => Marker.mid
  | sendrecv => Marker.sendrecv
  | recvonly => Marker.recvonly
  | sendonly => Marker.sendonly
  | iceUser => Marker.iceUser
  | icePass => Marker.icePass
  | ssrctag => Marker.ssrctag
  | ssrcgrouptag => Marker.ssrcgrouptag
  | rtpmap => Marker.rtpmap
  | rtcpmux => Marker.rtcpmux
  | fp => Marker.fp
  | setup => Marker.setup
  | extmap => Marker.extmap
  | rtcpfb => Marker.rtcpfb
  | fmtp => Marker.fmtp
  | bas => Marker.bas

variable {s w rest line : Text} {c : Char} {own : Option Mark} {m : Mark}

/-- The text has no marker, `own` apart. -/
def Text.ClearBut (own : Option Mark) (s : Text) : Prop := ∀ m : Mark, own ≠ some m → ¬ s.Has m.text

instance (own : Option Mark) (s : Text) : Decidable (s.ClearBut own) :=
  inferInstanceAs (Decidable (∀ _, _))

/-- The text has no marker. -/
abbrev Text.Clear (s : Text) : Prop := s.ClearBut none

/-- The line has this marker, or none, and no other. -/
def Sole (own : Option Mark) (line : Text) : Prop := ∀ m : Mark, line.Has m.text ↔ own = some m

instance (own : Option Mark) (line : Text) : Decidable (Sole own line) :=
  inferInstanceAs (Decidable (∀ _, _))

theorem Mark.text_shape (m : Mark) :
    m.text[0]? ∈ [some 'a', some 'b', some 'm'] ∧ m.text[1]? = some '=' ∧ '=' ∉ m.text.drop 2 := by
  revert m
  decide

theorem Mark.text_incomparable (m m' : Mark) (h : m.text <+: m'.text) : m = m' := by
  revert m m'
  decide

/-- A marker at the front of a text has the equals sign behind the first character. -/
theorem Mark.head_of_prefix (h : m.text <+: c :: s) : c ∈ ['a', 'b', 'm'] ∧ s.head? = some '=' := by
  obtain ⟨h0, h1, -⟩ := m.text_shape
  obtain ⟨rest, h⟩ := h
  cases hm : m.text with
  | nil => simp [hm] at h1
  | cons a text =>
    cases text with
    | nil => simp [hm] at h1
    | cons b text =>
      rw [hm] at h h0 h1
      obtain ⟨rfl, rfl⟩ := List.cons.inj h
      exact ⟨by simpa using h0, h1⟩

theorem Text.Clear.but (h : s.Clear) (own : Option Mark) : s.ClearBut own :=
  fun m _ => h m (Option.some_ne_none m).symm

theorem Text.ClearBut.cons (h : s.ClearBut own) (hc : s.head? ≠ some '=' ∨ c ∉ ['a', 'b', 'm']) :
    Text.ClearBut own (c :: s) := by
  intro m hown hm
  rcases List.infix_cons_iff.mp hm with hp | hi
  · obtain ⟨hmem, heq⟩ := Mark.head_of_prefix hp
    rcases hc with hc | hc
    · exact hc heq
    · exact hc hmem
  · exact h m hown hi

theorem Text.ClearBut.append (h : s.ClearBut own) (hs : s.head? ≠ some '=') (hw : '=' ∉ w) :
    Text.ClearBut own (w ++ s) := by
  induction w with
  | nil => exact h
  | cons c w ih =>
    rw [List.mem_cons, not_or] at hw
    refine (ih hw.2).cons (.inl ?_)
    cases w with
    | nil => exact hs
    | cons d w => exact fun heq => hw.2 (by rw [← Option.some.inj heq]; exact List.mem_cons_self)

theorem Text.clear_of_notMem (h : '=' ∉ w) : w.Clear := by
  have hnil : Text.Clear [] := by decide
  have := hnil.append (by simp) h
  rwa [List.append_nil] at this

/-- Behind a separator a text without markers may start with anything. -/
theorem Text.ClearBut.sep (h : s.ClearBut own) (hw : '=' ∉ w) (hc : c ∉ ['=', 'a', 'b', 'm']) :
    Text.ClearBut own (w ++ c :: s) := by
  rw [List.mem_cons, not_or] at hc
  exact (h.cons (.inr hc.2)).append (fun heq => hc.1 (Option.some.inj heq)) hw

/-- A text without a character lies on one side of it. -/
theorem infix_of_notMem {t : Text} (hc : c ∉ t) (h : t <:+: w ++ c :: s) : t <:+: w ∨ t <:+: s := by
  induction w with
  | nil =>
    rcases List.infix_cons_iff.mp h with hp | hi
    · cases t with
      | nil => exact .inr (List.nil_infix)
      | cons d t =>
        obtain ⟨rest, hrest⟩ := hp
        exact absurd (by rw [(List.cons.inj hrest).1]; exact List.mem_cons_self) hc
    · exact .inr hi
  | cons d w ih =>
    rcases List.infix_cons_iff.mp h with hp | hi
    · left
      rcases List.prefix_or_prefix_of_prefix hp (List.prefix_append (d :: w) (c :: s)) with hp' | hp'
      · exact hp'.isInfix
      · -- the text would reach over the character
        obtain ⟨v, rfl⟩ := hp'
        cases v with
        | nil => simp
        | cons e v =>
          obtain ⟨rest, hrest⟩ := hp
          have he : e :: (v ++ rest) = c :: s := by
            have := hrest
            simp only [List.cons_append, List.append_assoc] at this
            exact List.append_cancel_left (List.cons.inj this).2
          exact absurd (by simp [(List.cons.inj he).1]) hc
    · exact (ih hi).imp (List.infix_cons ·) id

/-- Markers have no blanks and no slashes. -/
theorem Mark.notMem_text (m : Mark) (hc : c ∈ [' ', '/']) : c ∉ m.text := by
  have hall : ∀ m : Mark, ' ' ∉ m.text ∧ '/' ∉ m.text := by decide
  simp only [List.mem_cons, List.not_mem_nil, or_false] at hc
  rcases hc with rfl | rfl
  · exact (hall m).1
  · exact (hall m).2

/-- Two texts without markers stay so on both sides of a blank or a slash. -/
theorem Text.ClearBut.join (hw : w.ClearBut own) (hs : s.ClearBut own) (hc : c ∈ [' ', '/']) :
    Text.ClearBut own (w ++ c :: s) := fun m hown hm =>
  (infix_of_notMem (m.notMem_text hc) hm).elim (hw m hown) (hs m hown)

/-- A line with a marker in front and no other behind it. -/
theorem Mark.sole (m : Mark) (h : s.ClearBut (some m)) (hs : s.head? ≠ some '=') :
    Sole (some m) (m.text ++ s) := by
  obtain ⟨-, h1, hdrop⟩ := m.text_shape
  intro m'
  rw [Option.some.injEq]
  refine ⟨fun hm => ?_, fun hm => hm ▸ ⟨[], s, rfl⟩⟩
  obtain ⟨a, text, hm'⟩ : ∃ a text, m.text = a :: '=' :: text := by
    cases ht : m.text with
    | nil => simp [ht] at h1
    | cons a text =>
      cases text with
      | nil => simp [ht] at h1
      | cons b text => exact ⟨a, text, by rw [ht] at h1; rw [← Option.some.inj h1]⟩
  have htail : Text.ClearBut (some m) ('=' :: (text ++ s)) :=
    (h.append hs (by rwa [hm'] at hdrop)).cons (.inr (by decide))
  rw [hm', List.cons_append, List.cons_append] at hm
  rcases List.infix_cons_iff.mp hm with hp | hi
  · rw [← List.cons_append, ← List.cons_append, ← hm'] at hp
    rcases List.prefix_or_prefix_of_prefix hp (List.prefix_append m.text s) with hp | hp
    · exact (m'.text_incomparable m hp).symm
    · exact m.text_incomparable m' hp
  · by_contra hne
    exact htail m' (fun heq => hne (Option.some.inj heq)) hi

/-! ### The handler of a marker -/

/-- The description and its section change, and the number of sections. -/
def Loop.openSection (loop : Loop) (mtype : MediaType) (edit : ℤ → SdpInfo → SdpInfo) : Loop :=
  ⟨edit (loop.mlineNum + 1) loop.info, loop.mlineNum + 1, mtype⟩

def Loop.setDirections (loop : Loop) (direction : StreamDirection) : Loop :=
  { loop with info := if loop.mtype = .audio then
      { loop.info with audioDirection := some direction }
    else { loop.info with videoDirection := some direction } }

/-- The handler of a marker. -/
def Mark.act (line : Text) (loop : Loop) : Mark → Option Loop
  | cand => do return { loop with info := { loop.info with
      candidateVector := ← pushCandidate line loop.mtype loop.info.candidateVector } }
  | crypto => do return { loop with info := { loop.info with
      cryptoVector := ← pushCrypto line loop.mtype loop.info.cryptoVector } }
  | group => do return { loop with info := { loop.info with
      isBundle := ← parseGroup line loop.info.isBundle
      bundleTags := loop.info.bundleTags ++ groupTags line } }
  | video => some (loop.openSection .video fun mline info =>
      { info with videoSdpMLine := mline, hasVideo := true })
  | audio => some (loop.openSection .audio fun mline info =>
      { info with audioSdpMLine := mline, hasAudio := true })
  | mid => do return { loop with info := { loop.info with
      bundleTags := ← setMid line loop.mtype loop.info.isBundle loop.info.bundleTags } }
  | sendrecv => some (loop.setDirections .sendrecv)
  | recvonly => some (loop.setDirections .recvonly)
  | sendonly => some (loop.setDirections .sendonly)
  | iceUser => do return { loop with info := { loop.info with
      iceVideoUsername := ← setVideoCredential line loop.mtype loop.info.iceVideoUsername
      iceAudioUsername := ← setAudioCredential line loop.mtype loop.info.iceAudioUsername } }
  | icePass => do return { loop with info := { loop.info with
      iceVideoPassword := ← setVideoCredential line loop.mtype loop.info.iceVideoPassword
      iceAudioPassword := ← setAudioCredential line loop.mtype loop.info.iceAudioPassword } }
  | ssrctag => do return { loop with info := { loop.info with
      videoSsrcList := ← addSsrc line loop.mtype loop.info.videoRtxSsrcMap loop.info.videoSsrcList
      audioSsrc := ← setAudioSsrc line loop.mtype loop.info.audioSsrc } }
  | ssrcgrouptag => some { loop with info := { loop.info with
      videoSsrcList := (simulcastSsrcs line loop.mtype).foldl
        (maybeAddSsrcToList loop.info.videoRtxSsrcMap) loop.info.videoSsrcList
      videoRtxSsrcMap := addFidGroup line loop.mtype loop.info.videoRtxSsrcMap } }
  | rtpmap => do return { loop with info := { loop.info with
      payloadParsedMap := ← processRtpmap line loop.mtype loop.info.payloadParsedMap } }
  | rtcpmux => some { loop with info := { loop.info with isRtcpMux := true } }
  | fp => do return { loop with info := { loop.info with
      fingerprint := ← parseFingerprint line
      isFingerprint := true } }
  | setup => do return { loop with info := { loop.info with dtlsRole := ← parseSetup line } }
  | extmap => do return { loop with info := { loop.info with
      extMapVector := ← pushExtmap line loop.mtype loop.info.extMapVector } }
  | rtcpfb => do return { loop with info := { loop.info with
      payloadParsedMap := ← processFeedback line loop.info.payloadParsedMap } }
  | fmtp => do return { loop with info := { loop.info with
      payloadParsedMap := ← processFmtp line loop.info.payloadParsedMap } }
  | bas => some { loop with info := { loop.info with
      videoBandwidth := if loop.mtype = .video then parseBandwidth line loop.info.videoBandwidth
        else loop.info.videoBandwidth } }

/-- The profile that a line sets. -/
def Loop.saw (loop : Loop) (line : Text) : Loop :=
  { loop with info := { loop.info with
      profile := if line.Has Marker.savpf then .savpf else loop.info.profile } }

/-- A line with one marker is read by its handler, a line without one by none. -/
theorem processLine_sole (h : Sole own line) (loop : Loop) : processLine loop line =
    match own with
    | none => some (loop.saw line)
    | some m => m.act line (loop.saw line) := by
  have hcand : line.Has Marker.cand ↔ own = some .cand := h .cand
  have hcrypto : line.Has Marker.crypto ↔ own = some .crypto := h .crypto
  have hgroup : line.Has Marker.group ↔ own = some .group := h .group
  have hvideo : line.Has Marker.video ↔ own = some .video := h .video
  have haudio : line.Has Marker.audio ↔ own = some .audio := h .audio
  have hmid : line.Has Marker.mid ↔ own = some .mid := h .mid
  have hsendrecv : line.Has Marker.sendrecv ↔ own = some .sendrecv := h .sendrecv
  have hrecvonly : line.Has Marker.recvonly ↔ own = some .recvonly := h .recvonly
  have hsendonly : line.Has Marker.sendonly ↔ own = some .sendonly := h .sendonly
  have hiceUser : line.Has Marker.iceUser ↔ own = some .iceUser := h .iceUser
  have hicePass : line.Has Marker.icePass ↔ own = some .icePass := h .icePass
  have hssrctag : line.Has Marker.ssrctag ↔ own = some .ssrctag := h .ssrctag
  have hssrcgrouptag : line.Has Marker.ssrcgrouptag ↔ own = some .ssrcgrouptag := h .ssrcgrouptag
  have hrtpmap : line.Has Marker.rtpmap ↔ own = some .rtpmap := h .rtpmap
  have hrtcpmux : line.Has Marker.rtcpmux ↔ own = some .rtcpmux := h .rtcpmux
  have hfp : line.Has Marker.fp ↔ own = some .fp := h .fp
  have hsetup : line.Has Marker.setup ↔ own = some .setup := h .setup
  have hextmap : line.Has Marker.extmap ↔ own = some .extmap := h .extmap
  have hrtcpfb : line.Has Marker.rtcpfb ↔ own = some .rtcpfb := h .rtcpfb
  have hfmtp : line.Has Marker.fmtp ↔ own = some .fmtp := h .fmtp
  have hbas : line.Has Marker.bas ↔ own = some .bas := h .bas
  simp only [processLine, sessionLine, codecLine, Text.on, setDirection, lineMedia, groupTags,
    GroupSkips, HasGroup, simulcastSsrcs, addFidGroup, FmtpSkips, hcand, hcrypto, hgroup, hvideo,
    haudio, hmid, hsendrecv, hrecvonly, hsendonly, hiceUser, hicePass, hssrctag, hssrcgrouptag,
    hrtpmap, hrtcpmux, hfp, hsetup, hextmap, hrtcpfb, hfmtp, hbas]
  cases own with
  | none => simp [Loop.saw]
  | some m =>
    cases m with
    | sendrecv | recvonly | sendonly =>
      by_cases ha : loop.mtype = .audio <;> simp [Mark.act, Loop.saw, Loop.setDirections, ha]
    | video | audio => simp [Mark.act, Loop.saw, Loop.openSection]
    | ssrcgrouptag => 
      by_cases hv : loop.mtype = .video <;>
        simp [Mark.act, Loop.saw, simulcastSsrcs, addFidGroup, HasGroup, GroupSkips, hssrcgrouptag, hv]
    | bas => by_cases hv : loop.mtype = .video <;> simp [Mark.act, Loop.saw, hv]
    | group => simp [Mark.act, Loop.saw, Option.bind_assoc, groupTags, hgroup]
    | fmtp => simp [Mark.act, Loop.saw]
    | _ => simp [Mark.act, Loop.saw, Option.bind_assoc]

end KkLicode.Sdp
