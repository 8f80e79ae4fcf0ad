import KkLicode.Sdp.LineRuns

/-! Which lines can be read. Each handler splits the line at separators of its own and
takes pieces at fixed places, so a line that is cut short has no behaviour. Of what was
read before only the section, the bundle and the first audio stream matter. -/

namespace KkLicode.Sdp

open Base CodecWrite

/-- The pieces that `processCandidate` uses are there: four, eight for a candidate of UDP, a ninth
if its type is announced, and thirteen if the type has a related address. -/
def CandidateReadable (pieces : List Text) : Prop :=
  4 ≤ pieces.length ∧
    (pieces[3]? = some "UDP".toList ∨ pieces[3]? = some "udp".toList → 8 ≤ pieces.length ∧
      (pieces[7]? = some "typ".toList → 9 ≤ pieces.length ∧
        (pieces[8]? = some "srflx".toList ∨ pieces[8]? = some "relay".toList → 13 ≤ pieces.length)))

/-- What was read before a line, as far as it matters whether the line can be read. -/
structure Position where
  mtype : MediaType
  isBundle : Bool
  /-- The number of bundle tags. -/
  tags : ℕ
  audioSsrc : UInt32

namespace Position

/-- The bundle that a line announces. -/
def AnnouncesBundle (line : Text) : Prop :=
  line.Has Marker.group ∧ (splitOneOf line ":  \r\n".toList 10)[1]? = some "BUNDLE".toList

instance (line : Text) : Decidable (AnnouncesBundle line) := inferInstanceAs (Decidable (_ ∧ _))

/-- The line is looked at for an audio stream. -/
def WantsAudioSsrc (p : Position) (line : Text) : Prop :=
  line.Has Marker.ssrctag ∧ lineMedia p.mtype line = .audio ∧ p.audioSsrc = 0

instance (p : Position) (line : Text) : Decidable (p.WantsAudioSsrc line) :=
  inferInstanceAs (Decidable (_ ∧ _))

/-- The position behind a line. -/
def next (p : Position) (line : Text) : Position where
  mtype := lineMedia p.mtype line
  isBundle := p.isBundle || decide (AnnouncesBundle line)
  tags := p.tags + (groupTags line).length
  audioSsrc := if p.WantsAudioSsrc line then (parseSsrc line).getD 0 else p.audioSsrc

def ofLoop (loop : Loop) : Position :=
  ⟨loop.mtype, loop.info.isBundle, loop.info.bundleTags.length, loop.info.audioSsrc⟩

end Position

/-- The text splits into so many pieces or more. -/
def Text.Splits (line : Text) (k : ℕ) (delims : Text) (maxSplits : ℕ) : Prop :=
  k ≤ (splitOneOf line delims maxSplits).length

/-- The handlers up to the ones of the codecs find their pieces. -/
structure SessionReadable (p : Position) (line : Text) : Prop where
  fingerprint : line.Has Marker.fp → ∃ value, (splitOneOf line ":".toList 1)[1]? = some value ∧
    value.Splits 2 " ".toList 0
  setup : line.Has Marker.setup → line.Splits 2 ":".toList 1
  group : line.Has Marker.group → line.Splits 2 ":  \r\n".toList 10
  candidate : line.Has Marker.cand → CandidateReadable (splitOneOf line " :".toList 0)
  crypto : line.Has Marker.crypto → line.Splits 5 " :".toList 0
  user : line.Has Marker.iceUser → line.Splits 2 ":".toList 1
  password : line.Has Marker.icePass → line.Splits 2 ":".toList 1
  /-- The loop over the tags ends. -/
  mid : line.Has Marker.mid → line.Splits 2 ": \r\n".toList 4 → (p.next line).isBundle →
    (p.next line).tags < 256
  ssrc : line.Has Marker.ssrctag → lineMedia p.mtype line = .video ∨ p.WantsAudioSsrc line →
    line.Splits 2 " :".toList 2

/-- The handlers of the codecs find their pieces, and the last character that two of them take
off. -/
structure CodecReadable (line : Text) : Prop where
  rtpmap : line.Has Marker.rtpmap → line.Splits 4 " :/\n".toList 4
  extmap : line.Has Marker.extmap → (splitOneOf line " :=".toList 3).length ≠ 3
  feedback : line.Has Marker.rtcpfb → line.Splits 3 " :".toList 2
  parameter (value : Text) : line.Has Marker.fmtp → (fmtpParts line).getLast? = some value →
    4 ≤ (fmtpParts line).length → value.cStr ≠ []

/-- The line can be read at a position. -/
def LineReadable (p : Position) (line : Text) : Prop :=
  SessionReadable p line ∧ (¬ GroupSkips line (lineMedia p.mtype line) → CodecReadable line)

/-- The lines can be read one after the other. -/
def LinesReadable : Position → List Text → Prop
  | _, [] => True
  | p, line :: lines => LineReadable p line ∧ LinesReadable (p.next line) lines

variable {loop loop' : Loop} {line marker delims : Text} {lines pieces : List Text}
  {mtype : MediaType} {k maxSplits : ℕ}

theorem getElem?_isSome_iff : pieces[k]?.isSome ↔ k + 1 ≤ pieces.length := by
  rw [← Nat.lt_iff_add_one_le, Option.isSome_iff_ne_none, ne_eq, List.getElem?_eq_none_iff, not_le]

theorem exists_piece (h : k + 1 ≤ pieces.length) : ∃ piece, pieces[k]? = some piece :=
  Option.isSome_iff_exists.mp (getElem?_isSome_iff.mpr h)

theorem le_length_of_piece {piece : Text} (h : pieces[k]? = some piece) : k + 1 ≤ pieces.length :=
  getElem?_isSome_iff.mp (by simp [h])

/-! ### The handlers -/

theorem hostTypeOf_related {name : Text} : hostTypeOf name = .srflx ∨ hostTypeOf name = .relay ↔
    name = "srflx".toList ∨ name = "relay".toList := by
  unfold hostTypeOf
  split_ifs with hsrflx hprflx hrelay <;> simp_all

/-- A candidate can be processed if and only if its pieces are there. -/
theorem processCandidate_isSome_iff {mediaType : MediaType} :
    (processCandidate pieces mediaType line).isSome ↔ CandidateReadable pieces := by
  constructor
  · intro h
    simp only [processCandidate, Option.bind_eq_bind, isSome_bind_iff] at h
    obtain ⟨_, -, _, -, protocol, hprotocol, h⟩ := h
    refine ⟨le_length_of_piece hprotocol, fun hudp => ?_⟩
    rw [hprotocol, Option.some.injEq, Option.some.injEq] at hudp
    rw [if_neg (by tauto)] at h
    simp only [isSome_bind_iff] at h
    obtain ⟨_, -, _, -, _, -, announced, hannounced, h⟩ := h
    refine ⟨le_length_of_piece hannounced, fun htyp => ?_⟩
    rw [hannounced, Option.some.injEq] at htyp
    rw [if_neg (not_not.mpr htyp)] at h
    simp only [isSome_bind_iff] at h
    obtain ⟨name, hname, related, hrelated, -⟩ := h
    refine ⟨le_length_of_piece hname, fun htype => ?_⟩
    rw [hname, Option.some.injEq, Option.some.injEq] at htype
    rw [relatedAddress, if_pos (hostTypeOf_related.mpr htype)] at hrelated
    obtain ⟨_, -, hrelated⟩ := Option.bind_eq_some_iff.mp hrelated
    obtain ⟨_, hport, -⟩ := Option.bind_eq_some_iff.mp hrelated
    exact le_length_of_piece hport
  · rintro ⟨hfour, hudp⟩
    obtain ⟨_, h1⟩ := exists_piece (show 1 + 1 ≤ pieces.length by omega)
    obtain ⟨_, h2⟩ := exists_piece (show 2 + 1 ≤ pieces.length by omega)
    obtain ⟨protocol, h3⟩ := exists_piece (show 3 + 1 ≤ pieces.length by omega)
    rw [processCandidate, h1, h2, h3]
    simp only [Option.bind_eq_bind, Option.bind_some]
    split_ifs with hno
    · rfl
    have height := hudp (by rw [h3, Option.some.injEq, Option.some.injEq]; tauto)
    obtain ⟨_, h4⟩ := exists_piece (show 4 + 1 ≤ pieces.length by omega)
    obtain ⟨_, h5⟩ := exists_piece (show 5 + 1 ≤ pieces.length by omega)
    obtain ⟨_, h6⟩ := exists_piece (show 6 + 1 ≤ pieces.length by omega)
    obtain ⟨announced, h7⟩ := exists_piece (show 7 + 1 ≤ pieces.length by omega)
    rw [h4, h5, h6, h7]
    simp only [Option.bind_some]
    split_ifs with htyp
    · rfl
    have hnine := height.2 (by rw [h7, not_not.mp htyp])
    obtain ⟨name, h8⟩ := exists_piece hnine.1
    rw [h8, Option.bind_some, relatedAddress]
    split_ifs with htype
    · have hlen := hnine.2 (by rwa [h8, Option.some.injEq, Option.some.injEq, ← hostTypeOf_related])
      obtain ⟨_, h10⟩ := exists_piece (show 10 + 1 ≤ pieces.length by omega)
      obtain ⟨_, h12⟩ := exists_piece (show 12 + 1 ≤ pieces.length by omega)
      simp [h10, h12]
    · rfl

theorem map_isSome_iff {α β : Type*} {x : Option α} {f : α → β} :
    (x.bind fun a => some (f a)).isSome ↔ x.isSome := by
  cases x <;> rfl

theorem parseFingerprint_isSome_iff : (parseFingerprint line).isSome ↔
    ∃ value, (splitOneOf line ":".toList 1)[1]? = some value ∧ value.Splits 2 " ".toList 0 := by
  simp only [parseFingerprint, Option.bind_eq_bind, isSome_bind_iff, getElem?_isSome_iff]
  rfl

theorem parseSetup_isSome_iff : (parseSetup line).isSome ↔ line.Splits 2 ":".toList 1 :=
  map_isSome_iff.trans getElem?_isSome_iff

theorem parseGroup_isSome_iff {isBundle : Bool} :
    (parseGroup line isBundle).isSome ↔ line.Splits 2 ":  \r\n".toList 10 :=
  map_isSome_iff.trans getElem?_isSome_iff

theorem pushCandidate_isSome_iff {candidates : List CandidateInfo} :
    (pushCandidate line mtype candidates).isSome ↔
      CandidateReadable (splitOneOf line " :".toList 0) :=
  map_isSome_iff.trans processCandidate_isSome_iff

theorem pushCrypto_isSome_iff {cryptos : List CryptoInfo} :
    (pushCrypto line mtype cryptos).isSome ↔ line.Splits 5 " :".toList 0 := by
  constructor
  · intro h
    obtain ⟨_, -, h⟩ := isSome_bind_iff.mp h
    obtain ⟨_, hkey, -⟩ := isSome_bind_iff.mp h
    exact le_length_of_piece hkey
  · intro h
    obtain ⟨_, hsuite⟩ := exists_piece (show 2 + 1 ≤ (splitOneOf line " :".toList 0).length from
      le_trans (by decide) h)
    obtain ⟨_, hkey⟩ := exists_piece h
    exact isSome_bind_iff.mpr ⟨_, hsuite, isSome_bind_iff.mpr ⟨_, hkey, rfl⟩⟩

/-- What is behind the colon is not empty, so there is something in front of a carriage return. -/
theorem parseCredential_isSome_iff : (parseCredential line).isSome ↔ line.Splits 2 ":".toList 1 := by
  constructor
  · intro h
    obtain ⟨value, hvalue, -⟩ := isSome_bind_iff.mp h
    exact le_length_of_piece hvalue
  · intro h
    obtain ⟨value, hvalue⟩ := exists_piece h
    have hne : value ≠ [] := ne_nil_of_splitFrom (by decide) (Nat.zero_le 1) hvalue
    refine isSome_bind_iff.mpr ⟨value, hvalue, getElem?_isSome_iff.mpr ?_⟩
    exact List.length_pos_iff.mpr (splitFrom_ne_nil (.inr hne))

/-- One of the two credentials is read on every line. -/
theorem credentials_isSome_iff {video audio : Text} :
    (setVideoCredential line mtype video).isSome ∧ (setAudioCredential line mtype audio).isSome ↔
      line.Splits 2 ":".toList 1 := by
  rw [setVideoCredential, setAudioCredential, ← parseCredential_isSome_iff]
  split_ifs <;> simp

theorem setMid_isSome_iff {isBundle : Bool} {tags : List BundleTag} :
    (setMid line mtype isBundle tags).isSome ↔
      (line.Splits 2 ": \r\n".toList 4 → isBundle → tags.length < 256) := by
  cases hid : (splitOneOf line ": \r\n".toList 4)[1]? with
  | none =>
    have hno : ¬ line.Splits 2 ": \r\n".toList 4 := fun h =>
      absurd (getElem?_isSome_iff.mpr h) (by rw [hid]; exact Bool.false_ne_true)
    simp only [setMid, hid, hno, false_imp_iff, Option.isSome_some]
  | some thisId =>
    have hsplits : line.Splits 2 ": \r\n".toList 4 := le_length_of_piece hid
    cases isBundle with
    | false => simp [setMid]
    | true =>
      simp only [setMid, hid, hsplits, true_imp_iff]
      split_ifs with hlen <;> simp [hlen]

theorem parseSsrc_isSome_iff : (parseSsrc line).isSome ↔ line.Splits 2 " :".toList 2 :=
  map_isSome_iff.trans getElem?_isSome_iff

theorem addSsrc_isSome_iff {rtx : StdMap UInt32 UInt32} {list : List UInt32} :
    (addSsrc line mtype rtx list).isSome ↔ (mtype = .video → line.Splits 2 " :".toList 2) := by
  rw [addSsrc]
  split_ifs with hm
  · simp only [hm, true_imp_iff]
    exact map_isSome_iff.trans parseSsrc_isSome_iff
  · simp [hm]

theorem setAudioSsrc_isSome_iff {ssrc : UInt32} : (setAudioSsrc line mtype ssrc).isSome ↔
    (mtype = .audio ∧ ssrc = 0 → line.Splits 2 " :".toList 2) := by
  rw [setAudioSsrc]
  split_ifs with hm
  · simp only [hm, and_self, true_imp_iff, parseSsrc_isSome_iff]
  · simp [hm]

theorem processRtpmap_isSome_iff {parsed : StdMap UInt32 RtpMap} :
    (processRtpmap line mtype parsed).isSome ↔ line.Splits 4 " :/\n".toList 4 := by
  constructor
  · intro h
    obtain ⟨_, hparse, -⟩ := isSome_bind_iff.mp h
    obtain ⟨_, -, hparse⟩ := Option.bind_eq_some_iff.mp hparse
    obtain ⟨_, -, hparse⟩ := Option.bind_eq_some_iff.mp hparse
    obtain ⟨_, hclock, -⟩ := Option.bind_eq_some_iff.mp hparse
    exact le_length_of_piece hclock
  · intro h
    have h : 4 ≤ (splitOneOf line " :/\n".toList 4).length := h
    obtain ⟨_, h1⟩ := exists_piece (show 1 + 1 ≤ (splitOneOf line " :/\n".toList 4).length by omega)
    obtain ⟨_, h2⟩ := exists_piece (show 2 + 1 ≤ (splitOneOf line " :/\n".toList 4).length by omega)
    obtain ⟨_, h3⟩ := exists_piece h
    have hparse : (parseRtpmap line).isSome := isSome_bind_iff.mpr ⟨_, h1, isSome_bind_iff.mpr
      ⟨_, h2, isSome_bind_iff.mpr ⟨_, h3, rfl⟩⟩⟩
    exact map_isSome_iff.mpr hparse

theorem pushExtmap_isSome_iff {extensions : List ExtMap} :
    (pushExtmap line mtype extensions).isSome ↔ (splitOneOf line " :=".toList 3).length ≠ 3 := by
  by_cases hlen : (splitOneOf line " :=".toList 3).length < 3
  · rw [pushExtmap, if_pos hlen]
    exact iff_of_true rfl (by omega)
  · rw [pushExtmap, if_neg hlen]
    constructor
    · intro h
      obtain ⟨_, -, h⟩ := isSome_bind_iff.mp h
      obtain ⟨_, huri, -⟩ := isSome_bind_iff.mp h
      have := le_length_of_piece huri
      omega
    · intro h
      obtain ⟨_, h2⟩ := exists_piece (show 2 + 1 ≤ (splitOneOf line " :=".toList 3).length by omega)
      obtain ⟨_, h3⟩ := exists_piece (show 3 + 1 ≤ (splitOneOf line " :=".toList 3).length by omega)
      exact isSome_bind_iff.mpr ⟨_, h2, isSome_bind_iff.mpr ⟨_, h3, rfl⟩⟩

/-- The third piece is what is left after two splits, so it has a last character. -/
theorem processFeedback_isSome_iff {parsed : StdMap UInt32 RtpMap} :
    (processFeedback line parsed).isSome ↔ line.Splits 3 " :".toList 2 := by
  constructor
  · intro h
    obtain ⟨_, hparse, -⟩ := isSome_bind_iff.mp h
    obtain ⟨_, -, hparse⟩ := Option.bind_eq_some_iff.mp hparse
    obtain ⟨_, htype, -⟩ := Option.bind_eq_some_iff.mp hparse
    exact le_length_of_piece htype
  · intro h
    have h : 3 ≤ (splitOneOf line " :".toList 2).length := h
    obtain ⟨_, h1⟩ := exists_piece (show 1 + 1 ≤ (splitOneOf line " :".toList 2).length by omega)
    obtain ⟨type, h2⟩ := exists_piece h
    have hne : type ≠ [] := ne_nil_of_splitFrom (by decide) (Nat.zero_le 2) h2
    have hpop : type.popBack = some type.dropLast := if_neg hne
    have hparse : (parseFeedback line).isSome := isSome_bind_iff.mpr ⟨_, h1, isSome_bind_iff.mpr
      ⟨_, h2, isSome_bind_iff.mpr ⟨_, hpop, rfl⟩⟩⟩
    exact map_isSome_iff.mpr hparse

/-- The value is the last of the four or five pieces. -/
theorem parseFmtp_isSome_iff (hlen : 4 ≤ (fmtpParts line).length) : (parseFmtp line).isSome ↔
    ∀ value, (fmtpParts line).getLast? = some value → value.cStr ≠ [] := by
  have hfive : (fmtpParts line).length ≤ 5 :=
    length_splitFrom_le (by decide) (Nat.zero_le 4)
  have hpop {value : Text} : value.popBack.isSome ↔ value ≠ [] := by
    rw [Text.popBack]
    split_ifs with h <;> simp [h]
  obtain ⟨_, h2⟩ := exists_piece (show 2 + 1 ≤ (fmtpParts line).length by omega)
  obtain ⟨part, h3⟩ := exists_piece hlen
  unfold parseFmtp
  dsimp only
  rw [h2, h3, List.getLast?_eq_getElem?]
  by_cases hlast : (fmtpParts line).length = 4
  · have h4 : (fmtpParts line)[4]? = none := List.getElem?_eq_none hlast.le
    rw [h4, show (fmtpParts line).length - 1 = 3 by omega, h3]
    simp only [Option.bind_eq_bind, Option.bind_some, Option.some.injEq, forall_eq']
    exact map_isSome_iff.trans hpop
  · obtain ⟨value, h4⟩ := exists_piece (show 4 + 1 ≤ (fmtpParts line).length by omega)
    rw [h4, show (fmtpParts line).length - 1 = 4 by omega, h4]
    simp only [Option.bind_eq_bind, Option.bind_some, Option.some.injEq, forall_eq']
    exact map_isSome_iff.trans hpop

theorem processFmtp_isSome_iff (hm : line.Has Marker.fmtp) {parsed : StdMap UInt32 RtpMap} :
    (processFmtp line parsed).isSome ↔ ∀ value, (fmtpParts line).getLast? = some value →
      4 ≤ (fmtpParts line).length → value.cStr ≠ [] := by
  rw [processFmtp]
  by_cases hskip : FmtpSkips line
  · rw [if_pos hskip]
    exact iff_of_true rfl fun _ _ hlen => absurd hskip.2 (by omega)
  · have hlen : 4 ≤ (fmtpParts line).length := by
      by_contra hlt
      exact hskip ⟨hm, by omega⟩
    rw [if_neg hskip]
    simp only [hlen, true_imp_iff]
    exact map_isSome_iff.trans (parseFmtp_isSome_iff hlen)

/-! ### Lines -/

theorem codecLine_isSome_iff : (codecLine loop line).isSome ↔ CodecReadable line := by
  constructor
  · intro h
    obtain ⟨_, hrtpmap, h⟩ := isSome_bind_iff.mp h
    obtain ⟨_, hextmap, h⟩ := isSome_bind_iff.mp h
    obtain ⟨_, hfeedback, h⟩ := isSome_bind_iff.mp h
    obtain ⟨_, hfmtp, -⟩ := isSome_bind_iff.mp h
    have hrtpmap := on_isSome_iff.mp (Option.isSome_of_eq_some hrtpmap)
    have hextmap := on_isSome_iff.mp (Option.isSome_of_eq_some hextmap)
    have hfeedback := on_isSome_iff.mp (Option.isSome_of_eq_some hfeedback)
    have hfmtp := on_isSome_iff.mp (Option.isSome_of_eq_some hfmtp)
    exact ⟨fun hm => processRtpmap_isSome_iff.mp (hrtpmap hm),
      fun hm => pushExtmap_isSome_iff.mp (hextmap hm),
      fun hm => processFeedback_isSome_iff.mp (hfeedback hm),
      fun value hm => (processFmtp_isSome_iff hm).mp (hfmtp hm) value⟩
  · intro h
    have hrtpmap (parsed) : (line.on Marker.rtpmap (processRtpmap line loop.mtype) parsed).isSome :=
      on_isSome_iff.mpr fun hm => processRtpmap_isSome_iff.mpr (h.rtpmap hm)
    have hextmap (extensions) : (line.on Marker.extmap (pushExtmap line loop.mtype) extensions).isSome :=
      on_isSome_iff.mpr fun hm => pushExtmap_isSome_iff.mpr (h.extmap hm)
    have hfeedback (parsed) : (line.on Marker.rtcpfb (processFeedback line) parsed).isSome :=
      on_isSome_iff.mpr fun hm => processFeedback_isSome_iff.mpr (h.feedback hm)
    have hfmtp (parsed) : (line.on Marker.fmtp (processFmtp line) parsed).isSome :=
      on_isSome_iff.mpr fun hm => (processFmtp_isSome_iff hm).mpr fun value => h.parameter value hm
    obtain ⟨parsed, hrtpmap⟩ := Option.isSome_iff_exists.mp (hrtpmap loop.info.payloadParsedMap)
    obtain ⟨_, hextmap⟩ := Option.isSome_iff_exists.mp (hextmap loop.info.extMapVector)
    obtain ⟨parsed', hfeedback⟩ := Option.isSome_iff_exists.mp (hfeedback parsed)
    obtain ⟨_, hfmtp⟩ := Option.isSome_iff_exists.mp (hfmtp parsed')
    exact isSome_bind_iff.mpr ⟨_, hrtpmap, isSome_bind_iff.mpr ⟨_, hextmap, isSome_bind_iff.mpr
      ⟨_, hfeedback, isSome_bind_iff.mpr ⟨_, hfmtp, rfl⟩⟩⟩⟩

/-- The bundle behind a line, as its handler leaves it. -/
theorem isBundle_next {isBundle : Bool}
    (h : line.on Marker.group (parseGroup line) loop.info.isBundle = some isBundle) :
    ((Position.ofLoop loop).next line).isBundle = isBundle := by
  rw [Text.on] at h
  split_ifs at h with hm
  · obtain ⟨kind, hkind, h⟩ := Option.bind_eq_some_iff.mp h
    rw [← Option.some.inj h]
    simp only [Position.next, Position.ofLoop, Position.AnnouncesBundle, hm, hkind, true_and,
      Option.some.injEq]
  · rw [← Option.some.inj h]
    simp [Position.next, Position.ofLoop, Position.AnnouncesBundle, hm]

theorem sessionLine_isSome_iff :
    (sessionLine loop line).isSome ↔ SessionReadable (Position.ofLoop loop) line := by
  rw [sessionDefined_iff]
  constructor
  · intro h
    constructor
    case fingerprint =>
      have hparse := on_isSome_iff.mp h.fingerprint
      exact fun hm => parseFingerprint_isSome_iff.mp (hparse hm)
    case setup =>
      have hparse := on_isSome_iff.mp h.dtlsRole
      exact fun hm => parseSetup_isSome_iff.mp (hparse hm)
    case group => exact fun hm => parseGroup_isSome_iff.mp (on_isSome_iff.mp h.isBundle hm)
    case candidate => exact fun hm => pushCandidate_isSome_iff.mp (on_isSome_iff.mp h.candidates hm)
    case crypto => exact fun hm => pushCrypto_isSome_iff.mp (on_isSome_iff.mp h.cryptos hm)
    case user =>
      exact fun hm => credentials_isSome_iff.mp
        ⟨on_isSome_iff.mp h.videoUsername hm, on_isSome_iff.mp h.audioUsername hm⟩
    case password =>
      exact fun hm => credentials_isSome_iff.mp
        ⟨on_isSome_iff.mp h.videoPassword hm, on_isSome_iff.mp h.audioPassword hm⟩
    case mid =>
      intro hm hsplits hb
      obtain ⟨isBundle, hgroup⟩ := Option.isSome_iff_exists.mp h.isBundle
      have htags := setMid_isSome_iff.mp (on_isSome_iff.mp (h.tags isBundle hgroup) hm) hsplits
        ((isBundle_next hgroup).symm.trans hb)
      rwa [List.length_append] at htags
    case ssrc =>
      rintro hm (hv | ha)
      · exact addSsrc_isSome_iff.mp (on_isSome_iff.mp h.videoSsrcs hm) hv
      · exact setAudioSsrc_isSome_iff.mp (on_isSome_iff.mp h.audioSsrc hm) ha.2
  · intro h
    have hvideoCredential (video : Text) (hsplits : line.Splits 2 ":".toList 1) :
        (setVideoCredential line (lineMedia loop.mtype line) video).isSome :=
      ((@credentials_isSome_iff line _ video []).mpr hsplits).1
    have haudioCredential (audio : Text) (hsplits : line.Splits 2 ":".toList 1) :
        (setAudioCredential line (lineMedia loop.mtype line) audio).isSome :=
      ((@credentials_isSome_iff line _ [] audio).mpr hsplits).2
    constructor
    case fingerprint =>
      exact on_isSome_iff.mpr fun hm => parseFingerprint_isSome_iff.mpr (h.fingerprint hm)
    case dtlsRole => exact on_isSome_iff.mpr fun hm => parseSetup_isSome_iff.mpr (h.setup hm)
    case isBundle => exact on_isSome_iff.mpr fun hm => parseGroup_isSome_iff.mpr (h.group hm)
    case candidates =>
      exact on_isSome_iff.mpr fun hm => pushCandidate_isSome_iff.mpr (h.candidate hm)
    case cryptos => exact on_isSome_iff.mpr fun hm => pushCrypto_isSome_iff.mpr (h.crypto hm)
    case videoUsername => exact on_isSome_iff.mpr fun hm => hvideoCredential _ (h.user hm)
    case audioUsername => exact on_isSome_iff.mpr fun hm => haudioCredential _ (h.user hm)
    case videoPassword => exact on_isSome_iff.mpr fun hm => hvideoCredential _ (h.password hm)
    case audioPassword => exact on_isSome_iff.mpr fun hm => haudioCredential _ (h.password hm)
    case tags =>
      refine fun isBundle hgroup => on_isSome_iff.mpr fun hm =>
        setMid_isSome_iff.mpr fun hsplits hb => ?_
      rw [List.length_append]
      exact h.mid hm hsplits ((isBundle_next hgroup).trans hb)
    case videoSsrcs =>
      exact on_isSome_iff.mpr fun hm => addSsrc_isSome_iff.mpr fun hv => h.ssrc hm (.inl hv)
    case audioSsrc =>
      exact on_isSome_iff.mpr fun hm => setAudioSsrc_isSome_iff.mpr fun ha => h.ssrc hm (.inr ⟨hm, ha⟩)

/-- The first audio stream behind a line. -/
theorem audioSsrc_next {ssrc : UInt32}
    (h : line.on Marker.ssrctag (setAudioSsrc line (lineMedia loop.mtype line)) loop.info.audioSsrc =
      some ssrc) : ((Position.ofLoop loop).next line).audioSsrc = ssrc := by
  rw [Text.on] at h
  by_cases hwants : (Position.ofLoop loop).WantsAudioSsrc line
  · have haudio : lineMedia loop.mtype line = .audio ∧ loop.info.audioSsrc = 0 := hwants.2
    have hread : parseSsrc line = some ssrc := by
      rwa [if_pos hwants.1, setAudioSsrc, if_pos haudio] at h
    rw [Position.next, if_pos hwants, hread]
    rfl
  · rw [Position.next, if_neg hwants]
    split_ifs at h with hm
    · have haudio : ¬ (lineMedia loop.mtype line = .audio ∧ loop.info.audioSsrc = 0) := fun ha =>
        hwants ⟨hm, ha⟩
      rw [setAudioSsrc, if_neg haudio] at h
      exact Option.some.inj h
    · exact Option.some.inj h

/-- The handlers leave the position behind the line. -/
theorem ofLoop_sessionLine (h : sessionLine loop line = some loop') :
    Position.ofLoop loop' = (Position.ofLoop loop).next line := by
  have hs := sessionLine_step h
  obtain ⟨_, -, h⟩ := Option.bind_eq_some_iff.mp h
  obtain ⟨_, -, h⟩ := Option.bind_eq_some_iff.mp h
  obtain ⟨isBundle, hgroup, h⟩ := Option.bind_eq_some_iff.mp h
  obtain ⟨_, -, h⟩ := Option.bind_eq_some_iff.mp h
  obtain ⟨_, -, h⟩ := Option.bind_eq_some_iff.mp h
  obtain ⟨_, -, h⟩ := Option.bind_eq_some_iff.mp h
  obtain ⟨_, -, h⟩ := Option.bind_eq_some_iff.mp h
  obtain ⟨_, -, h⟩ := Option.bind_eq_some_iff.mp h
  obtain ⟨_, -, h⟩ := Option.bind_eq_some_iff.mp h
  obtain ⟨_, -, h⟩ := Option.bind_eq_some_iff.mp h
  obtain ⟨_, -, h⟩ := Option.bind_eq_some_iff.mp h
  obtain ⟨_, -, h⟩ := Option.bind_eq_some_iff.mp h
  have hbundle : loop'.info.isBundle = ((Position.ofLoop loop).next line).isBundle := by
    rw [isBundle_next hgroup, ← Option.some.inj h]
  have htags : loop'.info.bundleTags.length = ((Position.ofLoop loop).next line).tags :=
    (length_setMid hs.tags).trans List.length_append
  have haudio := hs.audioSsrc
  rw [hs.mtype] at haudio
  rw [Position.ofLoop, hs.mtype, hbundle, htags, ← audioSsrc_next haudio]
  rfl

theorem processLine_isSome_iff :
    (processLine loop line).isSome ↔ LineReadable (Position.ofLoop loop) line := by
  rw [processLine, Option.bind_eq_bind, isSome_bind_iff, LineReadable, ← sessionLine_isSome_iff]
  constructor
  · rintro ⟨mid, hmid, h⟩
    have hmtype : mid.mtype = lineMedia (Position.ofLoop loop).mtype line :=
      (sessionLine_step hmid).mtype
    refine ⟨Option.isSome_of_eq_some hmid, fun hskip => ?_⟩
    rw [hmtype, if_neg hskip] at h
    exact codecLine_isSome_iff.mp h
  · rintro ⟨hsession, hcodec⟩
    obtain ⟨mid, hmid⟩ := Option.isSome_iff_exists.mp hsession
    have hmtype : mid.mtype = lineMedia (Position.ofLoop loop).mtype line :=
      (sessionLine_step hmid).mtype
    refine ⟨mid, hmid, ?_⟩
    rw [hmtype]
    split_ifs with hskip
    · rfl
    · exact codecLine_isSome_iff.mpr (hcodec hskip)

theorem ofLoop_processLine (h : processLine loop line = some loop') :
    Position.ofLoop loop' = (Position.ofLoop loop).next line := by
  obtain ⟨mid, hmid, ⟨-, rfl⟩ | ⟨-, h⟩⟩ := processLine_cases h
  · exact ofLoop_sessionLine hmid
  · obtain ⟨_, _, _, rfl⟩ := codecLine_frame h
    exact (ofLoop_sessionLine hmid : Position.ofLoop mid = _)

/-- The lines are read to the last one if and only if each can be read where it stands. -/
theorem foldlM_processLine_isSome_iff :
    (lines.foldlM processLine loop).isSome ↔ LinesReadable (Position.ofLoop loop) lines := by
  induction lines generalizing loop with
  | nil => exact iff_of_true rfl trivial
  | cons line lines ih =>
    rw [List.foldlM_cons, Option.bind_eq_bind, isSome_bind_iff, LinesReadable,
      ← processLine_isSome_iff, Option.isSome_iff_exists]
    constructor
    · rintro ⟨mid, hmid, h⟩
      rw [ih, ofLoop_processLine hmid] at h
      exact ⟨⟨mid, hmid⟩, h⟩
    · rintro ⟨⟨mid, hmid⟩, h⟩
      refine ⟨mid, hmid, ?_⟩
      rwa [ih, ofLoop_processLine hmid]

end KkLicode.Sdp
