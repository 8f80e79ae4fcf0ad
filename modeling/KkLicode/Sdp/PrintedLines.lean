import KkLicode.Base.Decimal
import KkLicode.Sdp.CodecWrites
import KkLicode.Sdp.GetSdp
import KkLicode.Sdp.LineRuns
import KkLicode.Sdp.SoleMarker

/-! What is read from the lines that `getSdp` prints. A text at the end of a line is read
up to its last character only where the line is one of feedback, of a parameter or of an
extension: there the last character is taken for the end of a line that came with a
carriage return. -/

namespace KkLicode.Sdp

open Base CodecWrite

/-- What the lines leave in the members that are compared. -/
structure Reading where
  mtype : MediaType
  negotiated : Negotiated
  internal : List RtpMap
  parsed : StdMap UInt32 RtpMap
  extensions : List ExtMap
  videoUsername : Text
  audioUsername : Text
  videoPassword : Text
  audioPassword : Text
  videoDirection : Option StreamDirection
  audioDirection : Option StreamDirection

def Loop.reading (loop : Loop) : Reading where
  mtype := loop.mtype
  negotiated := loop.info.toNegotiated
  internal := loop.info.internalPayloadVector
  parsed := loop.info.payloadParsedMap
  extensions := loop.info.extMapVector
  videoUsername := loop.info.iceVideoUsername
  audioUsername := loop.info.iceAudioUsername
  videoPassword := loop.info.iceVideoPassword
  audioPassword := loop.info.iceAudioPassword
  videoDirection := loop.info.videoDirection
  audioDirection := loop.info.audioDirection

/-- The lines are read from every state with few enough tags, and change what is read by `f`. -/
def Reads (lines : List Text) (f : Reading → Reading) : Prop :=
  (∀ line ∈ lines, '\n' ∉ line) ∧ ∀ loop : Loop, loop.info.bundleTags.length < 256 →
    ∃ loop', lines.foldlM processLine loop = some loop' ∧ loop'.reading = f loop.reading ∧
      loop'.info.bundleTags.length = loop.info.bundleTags.length

variable {lines lines' : List Text} {line s w rest : Text} {f g : Reading → Reading} {m : Mark}

theorem Reads.nil : Reads [] id :=
  ⟨fun _ h => absurd h List.not_mem_nil, fun loop _ => ⟨loop, rfl, rfl, rfl⟩⟩

theorem Reads.append (hf : Reads lines f) (hg : Reads lines' g) :
    Reads (lines ++ lines') fun r => g (f r) := by
  refine ⟨List.forall_mem_append.mpr ⟨hf.1, hg.1⟩, fun loop hloop => ?_⟩
  obtain ⟨mid, hmid, hr, hmidtags⟩ := hf.2 loop hloop
  obtain ⟨loop', hloop', hr', htags⟩ := hg.2 mid (hmidtags ▸ hloop)
  refine ⟨loop', ?_, hr'.trans (congrArg g hr), htags.trans hmidtags⟩
  rw [List.foldlM_append, hmid]
  exact hloop'

/-- Lines that are printed for the elements of a list and say nothing. -/
theorem Reads.flatMap {α : Type*} {l : List α} {print : α → List Text}
    (h : ∀ a ∈ l, Reads (print a) id) : Reads (l.flatMap print) id := by
  induction l with
  | nil => exact .nil
  | cons a l ih =>
    obtain ⟨ha, hl⟩ := List.forall_mem_cons.mp h
    exact ha.append (ih hl)

theorem Reads.of_eq (h : Reads lines f) (heq : f = g) : Reads lines g := heq ▸ h

/-- A line without a marker says nothing. -/
theorem reads_none (hline : '\n' ∉ line) (h : Sole none line) : Reads [line] id := by
  refine ⟨by simpa using hline, fun loop _ => ⟨loop.saw line, ?_, rfl, rfl⟩⟩
  rw [List.foldlM_cons, processLine_sole h loop]
  rfl

theorem Mark.no_lineEnd (m : Mark) : '\n' ∉ m.text := by
  revert m
  decide +kernel

/-- A line is read by the handler of its marker. -/
theorem reads_mark (hs : s.ClearBut (some m)) (hhead : s.head? ≠ some '=') (hline : '\n' ∉ s)
    (hact : ∀ loop : Loop, loop.info.bundleTags.length < 256 → ∃ loop',
      m.act (m.text ++ s) loop = some loop' ∧ loop'.reading = f loop.reading ∧
        loop'.info.bundleTags.length = loop.info.bundleTags.length) : Reads [m.text ++ s] f := by
  refine ⟨by simpa [m.no_lineEnd] using hline, fun loop hloop => ?_⟩
  obtain ⟨loop', hloop', hr, htags⟩ := hact (loop.saw (m.text ++ s)) hloop
  refine ⟨loop', ?_, hr, htags⟩
  rw [List.foldlM_cons, processLine_sole (m.sole hs hhead) loop]
  simp only [hloop']
  rfl

/-! ### Numbers -/

theorem strtoul_showUnsigned (n : UInt32) : (strtoul (showUnsigned n)).toUInt32 = n := by
  have hn := n.toNat_lt
  rw [strtoul, showUnsigned, leadingNumber_toDigits]
  simp only [signed, Bool.false_eq_true, if_false]
  rw [if_pos (by omega)]
  apply UInt32.toNat_inj.mp
  rw [UInt64.toNat_toUInt32, UInt64.toNat_ofNat']
  omega

/-- A payload type is read as it was, although it is printed as an `int`. -/
theorem strtoul_showInt (n : UInt32) : (strtoul (showInt (toInt n))).toUInt32 = n := by
  have hn := n.toNat_lt
  have hint : toInt n = if n.toNat < 2 ^ 31 then (n.toNat : ℤ) else n.toNat - 2 ^ 32 := by
    rw [toInt, BitVec.toInt_eq_toNat_cond, UInt32.toNat_toBitVec]
    split_ifs <;> omega
  apply UInt32.toNat_inj.mp
  rw [strtoul, showInt]
  by_cases hneg : toInt n < 0
  · have habs : (toInt n).natAbs = 2 ^ 32 - n.toNat := by
      split_ifs at hint <;> omega
    rw [if_pos hneg, leadingNumber_minus]
    simp only [signed, if_true]
    rw [if_pos (by omega), UInt64.toNat_toUInt32, UInt64.toNat_neg, UInt64.toNat_ofNat', habs,
      show UInt64.size = 2 ^ 64 from rfl]
    split_ifs at hint <;> omega
  · have habs : (toInt n).natAbs = n.toNat := by
      split_ifs at hint <;> omega
    rw [if_neg hneg, leadingNumber_toDigits]
    simp only [signed, Bool.false_eq_true, if_false]
    rw [if_pos (by omega), UInt64.toNat_toUInt32, UInt64.toNat_ofNat', habs]
    omega

/-- A printed number has no character but digits and a sign. -/
theorem showUnsigned_avoids {chars : Text} (n : UInt32) (h : chars.all (!·.isDigit)) :
    (showUnsigned n).Avoids chars := fun c hc hmem => by
  have hdigit := Nat.isDigit_of_mem_toDigits (by decide) (by decide) hc
  have hother := List.all_eq_true.mp h c hmem
  simp [hdigit] at hother

theorem showInt_avoids {chars : Text} (n : ℤ) (h : chars.all (!·.isDigit)) (hminus : '-' ∉ chars) :
    (showInt n).Avoids chars := by
  have hdigits (k : ℕ) : Text.Avoids (Nat.toDigits 10 k) chars := fun c hc hmem =>
    Decimal.notMem_toDigits (by simpa using List.all_eq_true.mp h c hmem) hc
  rw [showInt]
  split_ifs
  · exact Text.Avoids.cons_iff.mpr ⟨hminus, hdigits _⟩
  · exact hdigits _

/-! ### Lines without texts -/

/-- A text that may stand anywhere in a line. -/
abbrev Text.Bare (s : Text) : Prop := s.Avoids ['=', '\n']

theorem Text.Bare.notMem_eq (h : s.Bare) : '=' ∉ s := fun hm => h _ hm (by simp)

theorem Text.Bare.notMem_lineEnd (h : s.Bare) : '\n' ∉ s := fun hm => h _ hm (by simp)

theorem Text.Bare.clear (h : s.Bare) : s.Clear := Text.clear_of_notMem h.notMem_eq

theorem Text.Bare.head (h : s.Bare) : s.head? ≠ some '=' := fun hh =>
  h.notMem_eq (List.mem_of_mem_head? hh)

theorem bare_showUnsigned (n : UInt32) : (showUnsigned n).Bare :=
  showUnsigned_avoids n (by decide)

theorem bare_showInt (n : ℤ) : (showInt n).Bare := showInt_avoids n (by decide) (by decide)

/-- A line with a marker and a text that may stand anywhere. -/
theorem reads_bare (hs : s.Bare) (hact : ∀ loop : Loop, loop.info.bundleTags.length < 256 →
    ∃ loop', m.act (m.text ++ s) loop = some loop' ∧ loop'.reading = f loop.reading ∧
      loop'.info.bundleTags.length = loop.info.bundleTags.length) : Reads [m.text ++ s] f :=
  reads_mark (hs.clear.but _) hs.head hs.notMem_lineEnd hact

/-- A line without a marker that is printed as it is. -/
theorem reads_fixed (h : '\n' ∉ line ∧ Sole none line) : Reads [line] id := reads_none h.1 h.2

theorem bare_showPayloadTypes (codecs : List RtpMap) (count : ℕ) :
    (SdpInfo.showPayloadTypes codecs count).Bare := by
  intro c hc
  obtain ⟨⟨codec, i⟩, -, hc⟩ := List.mem_flatMap.mp hc
  rcases List.mem_append.mp hc with hc | hc
  · exact bare_showUnsigned _ c hc
  · split_ifs at hc
    · obtain rfl := List.mem_singleton.mp hc
      decide
    · cases hc

/-- The lines that open a section. -/
theorem reads_mediaLines (info : SdpInfo) (codecs : List RtpMap) (count : ℕ) {mtype : MediaType}
    (hm : m = .audio ∧ mtype = .audio ∨ m = .video ∧ mtype = .video) :
    Reads (info.mediaLines m.text codecs count) fun r => { r with mtype } := by
  have hopen (proto : Text) (hproto : proto.Bare) :
      Reads [m.text ++ " 1".toList ++ proto ++ SdpInfo.showPayloadTypes codecs count]
      fun r => { r with mtype } := by
    rw [List.append_assoc, List.append_assoc]
    refine reads_bare (Text.Avoids.append_iff.mpr ⟨by decide, Text.Avoids.append_iff.mpr
      ⟨hproto, bare_showPayloadTypes codecs count⟩⟩) fun loop _ => ?_
    rcases hm with ⟨rfl, rfl⟩ | ⟨rfl, rfl⟩ <;> exact ⟨_, rfl, rfl, rfl⟩
  have hrtcp : Reads (if info.isRtcpMux then ["a=rtcp:1 IN IP4 0.0.0.0".toList] else []) id := by
    split_ifs
    · exact reads_fixed (by decide)
    · exact .nil
  exact ((hopen _ (by cases info.profile <;> decide)).append
    (reads_fixed (by decide))).append hrtcp

/-- The line of the role. -/
theorem reads_setupLine (role : DtlsRole) : Reads [SdpInfo.setupLine role] id := by
  have key (name : Text) (hname : name.Bare)
      (hact : ∀ loop, ∃ role, Mark.setup.act (Mark.setup.text ++ name) loop =
        some { loop with info := { loop.info with dtlsRole := role } }) :
      Reads [Mark.setup.text ++ name] id :=
    reads_bare hname fun loop _ => by
      obtain ⟨role, hrole⟩ := hact loop
      exact ⟨_, hrole, rfl, rfl⟩
  cases role with
  | actpass => exact key "actpass".toList (by decide) fun _ => ⟨_, rfl⟩
  | passive => exact key "passive".toList (by decide) fun _ => ⟨_, rfl⟩
  | active => exact key "active".toList (by decide) fun _ => ⟨_, rfl⟩

/-- The line of the direction sets the one of the section. -/
theorem reads_directionLine (direction : StreamDirection) :
    Reads [SdpInfo.directionLine direction] fun r =>
      if r.mtype = .audio then { r with audioDirection := some direction }
      else { r with videoDirection := some direction } := by
  have key (mark : Mark) (hact : ∀ line loop, mark.act line loop = some (loop.setDirections direction)) :
      Reads [mark.text ++ []] fun r =>
        if r.mtype = .audio then { r with audioDirection := some direction }
        else { r with videoDirection := some direction } := by
    refine reads_bare (by decide) fun loop _ => ⟨_, hact _ loop, ?_, ?_⟩
    · rw [Loop.setDirections]
      by_cases ha : loop.mtype = .audio <;> simp [Loop.reading, ha]
    · rw [Loop.setDirections]
      by_cases ha : loop.mtype = .audio <;> simp [ha]
  cases direction with
  | sendrecv => exact key .sendrecv fun _ _ => rfl
  | sendonly => exact key .sendonly fun _ _ => rfl
  | recvonly => exact key .recvonly fun _ _ => rfl

theorem reads_muxLines (info : SdpInfo) : Reads info.muxLines id := by
  rw [SdpInfo.muxLines]
  split_ifs
  · exact @reads_bare [] id .rtcpmux (by decide) fun loop _ => ⟨_, rfl, rfl, rfl⟩
  · exact .nil

/-! ### Lines that end with a text -/

/-- A text that is read at the end of a line. -/
structure Text.EndsLine (s : Text) : Prop where
  ne_nil : s ≠ []
  lineEnd : '\n' ∉ s

instance (s : Text) : Decidable s.EndsLine :=
  decidable_of_iff (s ≠ [] ∧ '\n' ∉ s) ⟨fun ⟨h, h'⟩ => ⟨h, h'⟩, fun ⟨h, h'⟩ => ⟨h, h'⟩⟩

theorem head_behind {c : Char} (hw : w.Bare) (hc : c ∉ ['=', 'a', 'b', 'm', '\n']) :
    (w ++ c :: s).head? ≠ some '=' := by
  cases w with
  | nil => exact fun hh => hc (by rw [Option.some.inj hh]; decide)
  | cons d w => exact fun hh => hw.notMem_eq (by simp at hh; simp [hh])

theorem clearBut_behind {c : Char} (hs : s.ClearBut (some m)) (hw : w.Bare)
    (hc : c ∉ ['=', 'a', 'b', 'm', '\n']) : Text.ClearBut (some m) (w ++ c :: s) :=
  hs.sep hw.notMem_eq fun hm => hc (by simp at hm ⊢; tauto)

/-- A text behind a separator has no marker beside the one of its line. -/
theorem sole_behind {c : Char} (hs : s.ClearBut (some m)) (hw : w.Bare)
    (hc : c ∉ ['=', 'a', 'b', 'm', '\n']) : Sole (some m) (m.text ++ (w ++ c :: s)) :=
  m.sole (clearBut_behind hs hw hc) (head_behind hw hc)

/-- A line whose text stands behind a separator. -/
theorem reads_behind {c : Char} (hs : s.ClearBut (some m)) (hline : '\n' ∉ s) (hw : w.Bare)
    (hc : c ∉ ['=', 'a', 'b', 'm', '\n'])
    (hact : ∀ loop : Loop, loop.info.bundleTags.length < 256 → ∃ loop',
      m.act (m.text ++ (w ++ c :: s)) loop = some loop' ∧ loop'.reading = f loop.reading ∧
        loop'.info.bundleTags.length = loop.info.bundleTags.length) :
    Reads [m.text ++ (w ++ c :: s)] f := by
  have hne : c ≠ '\n' := fun he => hc (by simp [he])
  exact reads_mark (clearBut_behind hs hw hc) (head_behind hw hc)
    (by simp [hw.notMem_lineEnd, Ne.symm hne, hline]) hact

theorem parseCredential_line {u : Text} (hm : m = .iceUser ∨ m = .icePass) (hu : u ≠ [])
    (hr : '\r' ∉ u) : parseCredential (m.text ++ ':' :: u) = some u := by
  have hsplit : splitOneOf (m.text ++ ':' :: u) ":".toList 1 = [m.text, u] := by
    rw [splitOneOf, splitFrom_piece (by rcases hm with rfl | rfl <;> decide) (by decide)
      (.inr (by decide)), splitFrom_last_of_ne_nil (.inr (by decide)) hu]
  have hline : splitOneOf u "\r".toList 1 = [u] := by
    refine splitFrom_last_of_ne_nil (.inl fun c hc hmem => hr ?_) hu
    have hmem : c ∈ ['\r'] := hmem
    rwa [← List.mem_singleton.mp hmem]
  rw [parseCredential, hsplit]
  show (splitOneOf u "\r".toList 1)[0]? = some u
  rw [hline]
  rfl

/-- A text that is read in one piece from the line of a credential. -/
def Text.IsCredential (s : Text) : Prop := s ≠ [] ∧ s.Avoids "\r\n".toList

instance (s : Text) : Decidable s.IsCredential := inferInstanceAs (Decidable (_ ∧ _))

theorem Text.IsCredential.notMem_return (h : s.IsCredential) : '\r' ∉ s :=
  fun hc => h.2 _ hc (by decide)

theorem Text.IsCredential.notMem_lineEnd (h : s.IsCredential) : '\n' ∉ s :=
  fun hc => h.2 _ hc (by decide)

/-- The credentials of a section. -/
theorem reads_credentialLines {username password : Text} (hu : username.IsCredential)
    (hp : password.IsCredential) (hu' : username.ClearBut (some .iceUser))
    (hp' : password.ClearBut (some .icePass)) :
    Reads (SdpInfo.credentialLines username password) fun r =>
      if r.mtype = .audio then { r with audioUsername := username, audioPassword := password }
      else { r with videoUsername := username, videoPassword := password } := by
  have huser : Reads [Mark.iceUser.text ++ ':' :: username] fun r =>
      if r.mtype = .audio then { r with audioUsername := username }
      else { r with videoUsername := username } := by
    refine @reads_behind username [] _ _ ':' hu' hu.notMem_lineEnd .nil (by decide) fun loop _ => ?_
    have hparse := parseCredential_line (.inl rfl) hu.1 hu.notMem_return
    by_cases ha : loop.mtype = .audio <;>
      simp [Mark.act, setVideoCredential, setAudioCredential, ha, hparse, Loop.reading]
  have hpass : Reads [Mark.icePass.text ++ ':' :: password] fun r =>
      if r.mtype = .audio then { r with audioPassword := password }
      else { r with videoPassword := password } := by
    refine @reads_behind password [] _ _ ':' hp' hp.notMem_lineEnd .nil (by decide) fun loop _ => ?_
    have hparse := parseCredential_line (.inr rfl) hp.1 hp.notMem_return
    by_cases ha : loop.mtype = .audio <;>
      simp [Mark.act, setVideoCredential, setAudioCredential, ha, hparse, Loop.reading]
  refine (huser.append hpass).of_eq ?_
  funext r
  by_cases ha : r.mtype = .audio <;> simp [ha]

/-- A tag that is read: what `processSdp` pushes is a piece of one line. -/
def Text.IsTag (s : Text) : Prop := s.Clear ∧ '\n' ∉ s

instance (s : Text) : Decidable s.IsTag := inferInstanceAs (Decidable (_ ∧ _))

/-- The tags of a section say nothing that is compared. -/
theorem reads_midLine {tag : Text} (h : tag.IsTag) : Reads [SdpInfo.midLine tag] id := by
  refine @reads_behind tag [] _ .mid ':' (h.1.but _) h.2 .nil (by decide) fun loop hloop => ?_
  obtain ⟨tags, htags⟩ := @setMid_defined (SdpInfo.midLine tag) loop.mtype loop.info.bundleTags hloop
    loop.info.isBundle
  refine ⟨{ loop with info := { loop.info with bundleTags := tags } }, ?_, rfl, ?_⟩
  · rw [Mark.act]
    rw [show Mark.mid.text ++ ([] ++ ':' :: tag) = SdpInfo.midLine tag from rfl, htags]
    rfl
  · have hon : (SdpInfo.midLine tag).on Marker.mid (setMid (SdpInfo.midLine tag) loop.mtype
        loop.info.isBundle) loop.info.bundleTags = some tags := by
      rw [Text.on, if_pos ⟨[], ':' :: tag, rfl⟩, htags]
    exact length_setMid hon

/-! ### Lines of the codecs -/

/-- The channels behind a clock rate. -/
def ShowsChannels (channels : Text) : Prop := channels = [] ∨ ∃ n : UInt32, channels = '/' :: showUnsigned n

theorem parseRtpmap_line {codec : RtpMap} {clock : UInt32} {channels : Text}
    (hname : codec.encodingName.Avoids " :/\n".toList) (hc : ShowsChannels channels) :
    parseRtpmap (SdpInfo.rtpmapLine codec clock channels) =
      some (codec.payloadType, codec.encodingName, clock) := by
  have hpt := @showInt_avoids " :/\n".toList (toInt codec.payloadType) (by decide) (by decide)
  have hclock (n : UInt32) := @showUnsigned_avoids " :/\n".toList n (by decide)
  have hdigits (n : UInt32) : showUnsigned n ≠ [] := Nat.toDigits_ne_nil
  have hline : SdpInfo.rtpmapLine codec clock channels = "a=rtpmap".toList ++ ':' ::
      (showInt (toInt codec.payloadType) ++ ' ' :: (codec.encodingName ++ '/' ::
        (showUnsigned clock ++ channels))) := by
    rw [SdpInfo.rtpmapLine, show Marker.rtpmap = "a=rtpmap".toList ++ [':'] from rfl]
    simp only [List.append_assoc, List.cons_append, List.nil_append]
  have hrest : ∃ rest, splitFrom " :/\n".toList 4 3 [] (showUnsigned clock ++ channels) =
      showUnsigned clock :: rest := by
    rcases hc with rfl | ⟨n, rfl⟩
    · exact ⟨[], by rw [List.append_nil, splitFrom_last_of_ne_nil (.inl (hclock clock)) (hdigits clock)]⟩
    · exact ⟨_, splitFrom_piece (hclock clock) (by decide) (.inr (by decide))⟩
  obtain ⟨rest, hrest⟩ := hrest
  rw [parseRtpmap, hline, splitOneOf, splitFrom_piece (by decide) (by decide) (.inr (by decide)),
    splitFrom_piece hpt (by decide) (.inr (by decide)),
    splitFrom_piece hname (by decide) (.inr (by decide)), hrest]
  simp [strtoul_showInt, strtoul_showUnsigned]

/-- The name and the clock rate of a codec are read as they were. -/
theorem reads_rtpmapLine {codec : RtpMap} {clock : UInt32} {channels : Text}
    (hname : codec.encodingName.Avoids " :/\n".toList)
    (hclear : codec.encodingName.ClearBut (some .rtpmap)) (hc : ShowsChannels channels) :
    Reads [SdpInfo.rtpmapLine codec clock channels] fun r => { r with
      parsed := apply r.parsed (.rtpmap codec.payloadType codec.encodingName clock r.mtype) } := by
  have hparse := @parseRtpmap_line codec clock channels hname hc
  have hline : SdpInfo.rtpmapLine codec clock channels = Mark.rtpmap.text ++
      (showInt (toInt codec.payloadType) ++ (' ' :: (codec.encodingName ++ '/' ::
        (showUnsigned clock ++ channels)))) := by
    simp only [SdpInfo.rtpmapLine, Mark.text, List.append_assoc, List.cons_append]
  have hrest : Text.Bare (showUnsigned clock ++ channels) := by
    refine Text.Avoids.append_iff.mpr ⟨bare_showUnsigned _, ?_⟩
    rcases hc with rfl | ⟨n, rfl⟩
    · exact .nil
    · exact Text.Avoids.cons_iff.mpr ⟨by decide, bare_showUnsigned n⟩
  rw [hline] at hparse ⊢
  refine reads_behind (hclear.join (hrest.clear.but _) (by decide)) ?_ (bare_showInt _) (by decide)
    fun loop _ => ⟨{ loop with info := { loop.info with
      payloadParsedMap := apply loop.info.payloadParsedMap
        (.rtpmap codec.payloadType codec.encodingName clock loop.mtype) } }, ?_, rfl, rfl⟩
  · have hend : '\n' ∉ codec.encodingName := fun hm => hname _ hm (by decide)
    simp [hend, hrest.notMem_lineEnd]
  · simp [Mark.act, processRtpmap, hparse, apply, edit, CodecWrite.pt]

/-- A feedback type is read without its last character, if it has one. -/
theorem parseFeedback_line (pt : UInt32) {type : Text} : parseFeedback (SdpInfo.feedbackLine pt type) =
    if type = [] then none else some (pt, type.dropLast) := by
  have hpt := @showInt_avoids " :".toList (toInt pt) (by decide) (by decide)
  have hsplit : SdpInfo.feedbackLine pt type =
      "a=rtcp-fb".toList ++ ':' :: (showInt (toInt pt) ++ ' ' :: type) := by
    rw [SdpInfo.feedbackLine, show Marker.rtcpfb = "a=rtcp-fb".toList ++ [':'] from rfl]
    simp only [List.append_assoc, List.cons_append, List.nil_append]
  rw [parseFeedback, hsplit, splitOneOf, splitFrom_piece (by decide) (by decide) (.inr (by decide)),
    splitFrom_piece hpt (by decide) (.inr (by decide)), splitFrom_last (.inr (by decide)),
    List.nil_append]
  split_ifs with hnil
  · rfl
  · simp [strtoul_showInt, Text.popBack, hnil]

theorem reads_feedbackLine {pt : UInt32} {type : Text} (h : type.EndsLine)
    (hclear : type.ClearBut (some .rtcpfb)) :
    Reads [SdpInfo.feedbackLine pt type] fun r => { r with
      parsed := apply r.parsed (.feedback pt type.dropLast) } := by
  have hline : SdpInfo.feedbackLine pt type = Mark.rtcpfb.text ++ (showInt (toInt pt) ++ ' ' :: type) := by
    simp only [SdpInfo.feedbackLine, Mark.text, List.append_assoc]
  have hparse := @parseFeedback_line pt type
  rw [if_neg h.ne_nil] at hparse
  rw [hline] at hparse ⊢
  refine reads_behind hclear h.lineEnd (bare_showInt _) (by decide) fun loop _ =>
    ⟨{ loop with info := { loop.info with
      payloadParsedMap := apply loop.info.payloadParsedMap (.feedback pt type.dropLast) } },
      ?_, rfl, rfl⟩
  simp [Mark.act, processFeedback, hparse, apply, edit, CodecWrite.pt]

/-! ### Lines of the parameters -/

/-- What is printed of a parameter behind the payload type. -/
def parameterText (parameter : Text × Text) : Text :=
  if parameter.1 = "none".toList then parameter.2 else parameter.1 ++ '=' :: parameter.2

theorem fmtpParts_parameterLine (pt : UInt32) (parameter : Text × Text) :
    fmtpParts (SdpInfo.parameterLine pt parameter) =
      "a".toList :: "fmtp".toList :: showInt (toInt pt) ::
        splitFrom " :=".toList 4 3 [] (parameterText parameter) := by
  have hpt := @showInt_avoids " :=".toList (toInt pt) (by decide) (by decide)
  have hline : SdpInfo.parameterLine pt parameter = "a".toList ++ '=' :: ("fmtp".toList ++ ':' ::
      (showInt (toInt pt) ++ ' ' :: parameterText parameter)) := by
    rw [SdpInfo.parameterLine, parameterText,
      show Marker.fmtp = "a".toList ++ '=' :: ("fmtp".toList ++ [':']) from rfl]
    simp only [List.append_assoc, List.cons_append, List.nil_append]
  rw [fmtpParts, hline, splitOneOf, splitFrom_piece (by decide) (by decide) (.inr (by decide)),
    splitFrom_piece (by decide) (by decide) (.inr (by decide)),
    splitFrom_piece hpt (by decide) (.inr (by decide))]

theorem Text.length_popBack {t : Text} (h : s.cStr.popBack = some t) : t.length < s.length := by
  rw [popBack] at h
  split_ifs at h with hne
  rw [← Option.some.inj h, List.length_dropLast]
  have hpos := List.length_pos_of_ne_nil hne
  have hle : s.cStr.length ≤ s.length := (List.takeWhile_prefix _).length_le
  omega

theorem length_parameterText_le (option value : Text) :
    (parameterText (option, value)).length ≤ option.length + 1 + value.length := by
  rw [parameterText]
  split_ifs
  · simp only
    omega
  · simp only [List.length_append, List.length_cons]
    omega

/-- What is read of a parameter is shorter, at whatever separators it is split. -/
theorem length_parseFmtp {pt pt' : UInt32} {parameter : Text × Text} {option value : Text}
    (h : parseFmtp (SdpInfo.parameterLine pt parameter) = some (pt', option, value)) :
    (parameterText (option, value)).length < (parameterText parameter).length := by
  rw [parseFmtp, fmtpParts_parameterLine] at h
  rcases @splitFrom_cases " :=".toList [] (parameterText parameter) 4 3 with hone | ⟨w, c, rest, hw, hsplit⟩
  · -- one piece is a value
    rw [List.nil_append] at hone
    rw [hone] at h
    split_ifs at h with hnil
    · simp at h
    · simp only [List.getElem?_cons_succ, List.getElem?_cons_zero, Option.bind_eq_bind,
        Option.bind_some, List.getElem?_nil, Option.bind_eq_some_iff, Option.pure_def,
        Option.some.injEq, Prod.mk.injEq] at h
      obtain ⟨v, hv, -, rfl, rfl⟩ := h
      rw [parameterText, if_pos rfl]
      exact Text.length_popBack hv
  · rw [List.nil_append] at hw
    rw [hsplit, splitFrom_last (.inr (by decide)), List.nil_append] at h
    rw [hw, List.length_append, List.length_cons]
    split_ifs at h with hnil
    · simp only [List.getElem?_cons_succ, List.getElem?_cons_zero, Option.bind_eq_bind,
        Option.bind_some, List.getElem?_nil, Option.bind_eq_some_iff, Option.pure_def,
        Option.some.injEq, Prod.mk.injEq] at h
      obtain ⟨v, hv, -, rfl, rfl⟩ := h
      have hlt := Text.length_popBack hv
      rw [parameterText, if_pos rfl]
      simp only
      omega
    · simp only [List.getElem?_cons_succ, List.getElem?_cons_zero, Option.bind_eq_bind,
        Option.bind_some, Option.bind_eq_some_iff, Option.pure_def,
        Option.some.injEq, Prod.mk.injEq] at h
      obtain ⟨v, hv, -, rfl, rfl⟩ := h
      have hlt := Text.length_popBack hv
      have hle : w.cStr.length ≤ w.length := (List.takeWhile_prefix _).length_le
      have hsum := length_parameterText_le w.cStr v
      omega

theorem pt_parseFmtp {pt pt' : UInt32} {parameter : Text × Text} {option value : Text}
    (h : parseFmtp (SdpInfo.parameterLine pt parameter) = some (pt', option, value)) : pt' = pt := by
  rw [parseFmtp, fmtpParts_parameterLine] at h
  simp only [List.getElem?_cons_succ, List.getElem?_cons_zero, Option.bind_eq_bind,
    Option.bind_some, Option.bind_eq_some_iff, strtoul_showInt] at h
  obtain ⟨part, -, h⟩ := h
  split at h <;> simp only [Option.bind_eq_some_iff, Option.pure_def, Option.some.injEq,
    Prod.mk.injEq] at h
  · obtain ⟨_, -, hpt, -⟩ := h
    exact hpt.symm
  · obtain ⟨_, -, hpt, -⟩ := h
    exact hpt.symm

/-- A parameter is read as far as its line is. -/
theorem reads_parameterLine {pt : UInt32} {parameter : Text × Text} {ws : List CodecWrite}
    (hclear : (parameterText parameter).ClearBut (some .fmtp)) (hline : '\n' ∉ parameterText parameter)
    (hws : parameterWrites (SdpInfo.parameterLine pt parameter) = some ws) :
    Reads [SdpInfo.parameterLine pt parameter] fun r => { r with parsed := applyAll r.parsed ws } := by
  have hshape : SdpInfo.parameterLine pt parameter =
      Mark.fmtp.text ++ (showInt (toInt pt) ++ ' ' :: parameterText parameter) := by
    simp only [SdpInfo.parameterLine, parameterText, Mark.text, List.append_assoc]
  rw [hshape] at hws ⊢
  refine reads_behind hclear hline (bare_showInt _) (by decide) fun loop _ =>
    ⟨{ loop with info := { loop.info with
      payloadParsedMap := applyAll loop.info.payloadParsedMap ws } }, ?_, rfl, rfl⟩
  have hread := @on_processFmtp (Mark.fmtp.text ++ (showInt (toInt pt) ++ ' ' :: parameterText parameter))
    loop.info.payloadParsedMap
  rw [hws, Text.on, if_pos ⟨[], _, rfl⟩] at hread
  simp [Mark.act, hread]

/-! ### Lines of the extensions -/

/-- The pieces of the line of an extension. -/
theorem splitOneOf_extmapLine (extension : ExtMap) :
    splitOneOf (SdpInfo.extmapLine extension) " :=".toList 3 =
      "a".toList :: "extmap".toList :: showUnsigned extension.value ::
        if extension.uri = [] then [] else [extension.uri] := by
  have hvalue := @showUnsigned_avoids " :=".toList extension.value (by decide)
  have hline : SdpInfo.extmapLine extension = "a".toList ++ '=' :: ("extmap".toList ++ ':' ::
      (showUnsigned extension.value ++ ' ' :: extension.uri)) := by
    rw [SdpInfo.extmapLine, show Marker.extmap = "a".toList ++ '=' :: ("extmap".toList ++ [':']) from rfl]
    simp only [List.append_assoc, List.cons_append, List.nil_append]
  rw [hline, splitOneOf, splitFrom_piece (by decide) (by decide) (.inr (by decide)),
    splitFrom_piece (by decide) (by decide) (.inr (by decide)),
    splitFrom_piece hvalue (by decide) (.inr (by decide)), splitFrom_last (.inr (by decide)),
    List.nil_append]

/-- The name of an extension loses its last character. -/
theorem reads_extmapLine {extension : ExtMap} (h : extension.uri.EndsLine)
    (hclear : extension.uri.ClearBut (some .extmap)) :
    Reads [SdpInfo.extmapLine extension] fun r => { r with
      extensions := r.extensions ++ [⟨extension.value, extension.uri.dropLast, r.mtype⟩] } := by
  have hline : SdpInfo.extmapLine extension =
      Mark.extmap.text ++ (showUnsigned extension.value ++ ' ' :: extension.uri) := by
    simp only [SdpInfo.extmapLine, Mark.text, List.append_assoc]
  have hsplit := splitOneOf_extmapLine extension
  rw [if_neg h.ne_nil] at hsplit
  rw [hline] at hsplit ⊢
  refine reads_behind hclear h.lineEnd (bare_showUnsigned _) (by decide) fun loop _ =>
    ⟨{ loop with info := { loop.info with
      extMapVector := loop.info.extMapVector ++
        [⟨extension.value, extension.uri.dropLast, loop.mtype⟩] } }, ?_, rfl, rfl⟩
  rw [Mark.act, pushExtmap, hsplit]
  simp [strtoul_showUnsigned]

/-! ### Lines of the streams and of the session -/

/-- The lines of a stream say nothing that is compared. -/
theorem reads_ssrcLines {msidtemp label : Text} (hm : msidtemp.Bare) (hl : label.Bare) (ssrc : UInt32) :
    Reads (SdpInfo.ssrcLines msidtemp label ssrc) id := by
  have key (value : Text) (hv : value.Bare) :
      Reads [Marker.ssrctag ++ showUnsigned ssrc ++ ' ' :: value] id := by
    have hs := @showUnsigned_avoids " :".toList ssrc (by decide)
    have hsplit : parseSsrc (Marker.ssrctag ++ (showUnsigned ssrc ++ ' ' :: value)) = some ssrc := by
      rw [parseSsrc, show Marker.ssrctag ++ (showUnsigned ssrc ++ ' ' :: value) =
          "a=ssrc".toList ++ ':' :: (showUnsigned ssrc ++ ' ' :: value) from rfl,
        splitOneOf, splitFrom_piece (by decide) (by decide) (.inr (by decide)),
        splitFrom_piece hs (by decide) (.inr (by decide))]
      simp [strtoul_showUnsigned]
    rw [List.append_assoc]
    have hbare : Text.Bare (showUnsigned ssrc ++ ' ' :: value) :=
      Text.Avoids.append_iff.mpr ⟨bare_showUnsigned ssrc, Text.Avoids.cons_iff.mpr ⟨by decide, hv⟩⟩
    refine @reads_bare _ _ .ssrctag hbare fun loop _ => ?_
    simp only [Mark.act, Mark.text, addSsrc, setAudioSsrc, hsplit]
    split_ifs <;> exact ⟨_, rfl, rfl, rfl⟩
  have hcname := key "cname:o/i14u9pJrxRKAsu".toList (by decide)
  have hmsid := key ("msid:".toList ++ msidtemp ++ ' ' :: label) (by
    simp only [Text.Bare, Text.Avoids.append_iff, Text.Avoids.cons_iff]
    exact ⟨⟨by decide, hm⟩, by decide, hl⟩)
  have hmslabel := key ("mslabel:".toList ++ msidtemp) (Text.Avoids.append_iff.mpr ⟨by decide, hm⟩)
  have hlabel := key ("label:".toList ++ msidtemp ++ label) (by
    simp only [Text.Bare, Text.Avoids.append_iff]
    exact ⟨⟨by decide, hm⟩, hl⟩)
  exact ((hcname.append hmsid).append hmslabel).append hlabel

theorem length_groupTags (line : Text) : (groupTags line).length ≤ 11 := by
  rw [groupTags]
  split_ifs
  · have : (splitOneOf line ":  \r\n".toList 10).length ≤ 10 - 0 + 1 :=
      length_splitFrom_le (by decide) (Nat.zero_le _)
    rw [List.length_map, List.length_drop]
    omega
  · exact Nat.zero_le _

/-- Tags with blanks between them have no marker. -/
theorem clear_flatMap {tags : List BundleTag} (hw : w.IsTag) (h : ∀ tag ∈ tags, tag.id.IsTag) :
    Text.IsTag (w ++ tags.flatMap (' ' :: ·.id)) := by
  induction tags generalizing w with
  | nil => rwa [List.flatMap_nil, List.append_nil]
  | cons tag tags ih =>
    obtain ⟨htag, htags⟩ := List.forall_mem_cons.mp h
    obtain ⟨hclear, hend⟩ := ih htag htags
    rw [List.flatMap_cons, List.cons_append]
    exact ⟨hw.1.join hclear (by decide), by simpa [hw.2] using hend⟩

/-- The line with the tags adds some, and says nothing that is compared. -/
theorem read_groupLine {tags : List BundleTag} (h : ∀ tag ∈ tags, tag.id.IsTag) (loop : Loop) :
    '\n' ∉ "a=group:BUNDLE".toList ++ tags.flatMap (' ' :: ·.id) ∧
    ∃ loop', processLine loop ("a=group:BUNDLE".toList ++ tags.flatMap (' ' :: ·.id)) = some loop' ∧
      loop'.reading = loop.reading ∧
      loop'.info.bundleTags.length ≤ loop.info.bundleTags.length + 11 := by
  obtain ⟨hclear, hend⟩ := @clear_flatMap "BUNDLE".toList tags (by decide) h
  have hline : "a=group:BUNDLE".toList ++ tags.flatMap (' ' :: ·.id) =
      Mark.group.text ++ ("BUNDLE".toList ++ tags.flatMap (' ' :: ·.id)) := by
    rw [← List.append_assoc]
    rfl
  have hkind : ∃ kind rest, splitOneOf (Mark.group.text ++ ("BUNDLE".toList ++
      tags.flatMap (' ' :: ·.id))) ":  \r\n".toList 10 = "a=group".toList :: kind :: rest := by
    have hsplit : Mark.group.text ++ ("BUNDLE".toList ++ tags.flatMap (' ' :: ·.id)) =
        "a=group".toList ++ ':' :: ("BUNDLE".toList ++ tags.flatMap (' ' :: ·.id)) := rfl
    rw [hsplit, splitOneOf, splitFrom_piece (by decide) (by decide) (.inr (by decide))]
    cases tags with
    | nil => exact ⟨_, _, by rw [List.flatMap_nil, List.append_nil,
        splitFrom_last_of_ne_nil (.inl (by decide)) (by decide)]⟩
    | cons tag tags => exact ⟨_, _, by rw [List.flatMap_cons, List.cons_append,
        splitFrom_piece (by decide) (by decide) (.inr (by decide))]⟩
  obtain ⟨kind, rest, hkind⟩ := hkind
  rw [hline]
  refine ⟨fun hmem => (List.mem_append.mp hmem).elim Mark.group.no_lineEnd hend, ?_⟩
  rw [processLine_sole (Mark.group.sole (hclear.but _) (by simp))]
  simp only [Mark.act, parseGroup, hkind]
  refine ⟨_, rfl, rfl, ?_⟩
  show (loop.info.bundleTags ++ groupTags _).length ≤ _
  rw [List.length_append]
  exact Nat.add_le_add_left (length_groupTags _) _

/-- The line with the stream label has no marker. -/
theorem reads_msidLine {msidtemp : Text} (hm : msidtemp.Bare) :
    Reads ["a=msid-semantic: WMS ".toList ++ msidtemp] id := by
  have hbare : Text.Bare ("msid-semantic: WMS ".toList ++ msidtemp) :=
    Text.Avoids.append_iff.mpr ⟨by decide, hm⟩
  have hclear : Text.Clear ('=' :: ("msid-semantic: WMS ".toList ++ msidtemp)) :=
    hbare.clear.cons (.inr (by decide))
  -- the line is longer than every marker before the label begins
  have hlen : ∀ m : Mark, m.text.length ≤ "a=msid-semantic: WMS ".toList.length := by decide
  have hno : ∀ m : Mark, ¬m.text <+: "a=msid-semantic: WMS ".toList := by decide +kernel
  refine reads_none ?_ fun m => iff_of_false (fun hmark => ?_) (by simp)
  · exact fun hend => (List.mem_append.mp hend).elim (by decide) hm.notMem_lineEnd
  · rcases List.infix_cons_iff.mp hmark with hp | hi
    · exact hno m (List.prefix_of_prefix_length_le hp (List.prefix_append _ msidtemp) (hlen m))
    · exact hclear m (Option.some_ne_none m).symm hi

/-- The lines before the first section say nothing that is compared. -/
theorem read_sessionLines {info : SdpInfo} {msidtemp : Text} (hm : msidtemp.Bare)
    (hcount : info.isBundle → info.bundleTags.length < 256)
    (htags : info.isBundle → ∀ tag ∈ info.bundleTags, tag.id.IsTag) :
    ∃ lines, info.sessionLines msidtemp = some lines ∧ (∀ line ∈ lines, '\n' ∉ line) ∧
      ∀ loop : Loop, loop.info.bundleTags = [] → ∃ loop', lines.foldlM processLine loop = some loop' ∧
        loop'.reading = loop.reading ∧ loop'.info.bundleTags.length < 256 := by
  have hversion : Reads ["v=0".toList] id := reads_fixed (by decide +kernel)
  have horigin : Reads ["o=- 0 0 IN IP4 127.0.0.1".toList] id := reads_fixed (by decide +kernel)
  have hname : Reads ["s=".toList ++ SDP_IDENTIFIER] id := reads_fixed (by decide +kernel)
  have htime : Reads ["t=0 0".toList] id := reads_fixed (by decide +kernel)
  have hfour : Reads ["v=0".toList, "o=- 0 0 IN IP4 127.0.0.1".toList,
      "s=".toList ++ SDP_IDENTIFIER, "t=0 0".toList] id :=
    ((hversion.append horigin).append hname).append htime
  rw [SdpInfo.sessionLines, SdpInfo.bundleLines]
  split_ifs with hb
  · have hmsid := reads_msidLine hm
    refine ⟨_, by rw [byteLoop, if_pos (hcount hb)]; rfl, ?_, fun loop hloop => ?_⟩
    · obtain ⟨hgroup, -⟩ := read_groupLine (htags hb) ⟨info, -1, .other⟩
      rw [List.forall_mem_append]
      refine ⟨hfour.1, List.forall_mem_cons.mpr ⟨hgroup, hmsid.1⟩⟩
    · obtain ⟨first, hfirst, hr, hl⟩ := hfour.2 loop (by simp [hloop])
      obtain ⟨-, second, hsecond, hr', hl'⟩ := read_groupLine (htags hb) first
      have hlt : second.info.bundleTags.length < 256 := by
        rw [hl, hloop, List.length_nil] at hl'
        omega
      obtain ⟨third, hthird, hr'', hl''⟩ := hmsid.2 second hlt
      refine ⟨third, ?_, hr''.trans (hr'.trans hr), hl'' ▸ hlt⟩
      rw [List.foldlM_append, hfirst]
      simp only [Option.bind_eq_bind, Option.bind_some, List.foldlM_cons, hsecond]
      exact hthird
  · refine ⟨_, rfl, hfour.1, fun loop hloop => ?_⟩
    obtain ⟨loop', hrun, hr, hl⟩ := hfour.2 loop (by simp [hloop])
    exact ⟨loop', hrun, hr, by simp [hl, hloop]⟩

end KkLicode.Sdp
