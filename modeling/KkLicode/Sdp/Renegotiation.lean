import KkLicode.Sdp.LineRuns
import KkLicode.Sdp.PayloadTypes

/-! Setting the same description again. Candidates, bundle tags, extensions, feedback types
and agreed codecs are appended, streams are added if they are new, and everything else is
overwritten. So the second call changes nothing if and only if nothing is appended. -/

namespace KkLicode.Sdp

open Base Folds CodecWrite

variable {loop loop' : Loop} {line : Text} {mtype : MediaType} {info info' : SdpInfo}
  {sdp media : Text}

/-- The candidates that a line adds. -/
def lineCandidates (mtype : MediaType) (line : Text) : Option (List CandidateInfo) :=
  line.on Marker.cand (pushCandidate line mtype) []

/-- The extensions that a line adds. -/
def lineExtensions (mtype : MediaType) (line : Text) : Option (List ExtMap) :=
  if GroupSkips line mtype then some [] else line.on Marker.extmap (pushExtmap line mtype) []

theorem on_pushCandidate (candidates : List CandidateInfo) :
    line.on Marker.cand (pushCandidate line mtype) candidates =
      (lineCandidates mtype line).map (candidates ++ ·) := by
  rw [lineCandidates, Text.on, Text.on]
  split_ifs
  · rw [pushCandidate, pushCandidate]
    cases processCandidate (splitOneOf line " :".toList 0) mtype line <;> rfl
  · exact congrArg some (List.append_nil _).symm

theorem on_pushExtmap (extensions : List ExtMap) :
    line.on Marker.extmap (pushExtmap line mtype) extensions =
      (line.on Marker.extmap (pushExtmap line mtype) []).map (extensions ++ ·) := by
  rw [Text.on, Text.on]
  split_ifs
  · rw [pushExtmap, pushExtmap]
    split_ifs
    · exact congrArg some (List.append_nil _).symm
    · cases (splitOneOf line " :=".toList 3)[2]? with
      | none => rfl
      | some id => cases (splitOneOf line " :=".toList 3)[3]? <;> rfl
  · exact congrArg some (List.append_nil _).symm

theorem processLine_candidates (h : processLine loop line = some loop') :
    ∃ added, lineCandidates loop'.mtype line = some added ∧
      loop'.info.candidateVector = loop.info.candidateVector ++ added := by
  obtain ⟨mid, hmid, hcases⟩ := processLine_cases h
  have hs := sessionLine_step hmid
  have hcand := hs.candidates
  rw [on_pushCandidate] at hcand
  obtain ⟨added, hadded, heq⟩ := Option.map_eq_some_iff.mp hcand
  obtain ⟨-, rfl⟩ | ⟨-, hcodec⟩ := hcases
  · exact ⟨added, hadded, heq.symm⟩
  · obtain ⟨_, _, _, rfl⟩ := codecLine_frame hcodec
    exact ⟨added, hadded, heq.symm⟩

theorem readLines_candidates (h : readLines info sdp media = some loop) :
    loop.info.candidateVector = info.candidateVector ++ overText lineCandidates sdp media :=
  overText_of_run (fun loop added loop' =>
      loop'.info.candidateVector = loop.info.candidateVector ++ added)
    (fun _ => (List.append_nil _).symm) (fun ha hb => by rw [hb, ha, List.append_assoc])
    processLine_candidates h

theorem processLine_extensions (h : processLine loop line = some loop') :
    ∃ added, lineExtensions loop'.mtype line = some added ∧
      loop'.info.extMapVector = loop.info.extMapVector ++ added := by
  obtain ⟨mid, hmid, hcases⟩ := processLine_cases h
  have hs := sessionLine_step hmid
  rw [← hs.extensions]
  obtain ⟨hskip, rfl⟩ | ⟨hskip, hcodec⟩ := hcases
  · exact ⟨[], if_pos hskip, (List.append_nil _).symm⟩
  · obtain ⟨_, -, hcodec⟩ := Option.bind_eq_some_iff.mp hcodec
    obtain ⟨extensions, hext, hcodec⟩ := Option.bind_eq_some_iff.mp hcodec
    obtain ⟨_, -, hcodec⟩ := Option.bind_eq_some_iff.mp hcodec
    obtain ⟨_, -, hcodec⟩ := Option.bind_eq_some_iff.mp hcodec
    rw [← Option.some.inj hcodec]
    rw [on_pushExtmap] at hext
    obtain ⟨added, hadded, heq⟩ := Option.map_eq_some_iff.mp hext
    exact ⟨added, (if_neg hskip).trans hadded, heq.symm⟩

theorem readLines_extensions (h : readLines info sdp media = some loop) :
    loop.info.extMapVector = info.extMapVector ++ overText lineExtensions sdp media :=
  overText_of_run (fun loop added loop' =>
      loop'.info.extMapVector = loop.info.extMapVector ++ added)
    (fun _ => (List.append_nil _).symm) (fun ha hb => by rw [hb, ha, List.append_assoc])
    processLine_extensions h

/-- The bundle tags that a line adds. -/
def lineTags (_ : MediaType) (line : Text) : Option (List BundleTag) := some (groupTags line)

theorem overLines_lineTags (lines : List Text) :
    overLines lineTags mtype lines = some (lines.flatMap groupTags) := by
  induction lines generalizing mtype with
  | nil => rfl
  | cons line lines ih =>
    rw [overLines, ih]
    rfl

theorem processLine_tags (h : processLine loop line = some loop') :
    loop'.info.bundleTags.length = loop.info.bundleTags.length + (groupTags line).length := by
  obtain ⟨mid, hmid, hcases⟩ := processLine_cases h
  have hlength := length_setMid (sessionLine_step hmid).tags
  rw [List.length_append] at hlength
  obtain ⟨-, rfl⟩ | ⟨-, hcodec⟩ := hcases
  · exact hlength
  · obtain ⟨_, _, _, rfl⟩ := codecLine_frame hcodec
    exact hlength

theorem readLines_tags (h : readLines info sdp media = some loop) :
    loop.info.bundleTags.length =
      info.bundleTags.length + ((getlines sdp).flatMap groupTags).length := by
  have hlength := overText_of_run (fun loop (added : List BundleTag) loop' =>
      loop'.info.bundleTags.length = loop.info.bundleTags.length + added.length)
    (fun _ => rfl) (fun ha hb => by rw [hb, ha, List.length_append, Nat.add_assoc])
    (fun h => ⟨_, (rfl : lineTags _ _ = _), processLine_tags h⟩) h
  rwa [overText, overLines_lineTags] at hlength

/-- The streams of video that a line names. -/
def lineSsrcs (mtype : MediaType) (line : Text) : Option (List UInt32) := do
  let ssrcs ← line.on Marker.ssrctag (fun ssrcs =>
    if mtype = .video then do return ssrcs ++ [← parseSsrc line] else some ssrcs) []
  return ssrcs ++ simulcastSsrcs line mtype

/-- The streams that are in the list or are streams of retransmissions. -/
def SdpInfo.Knows (info : SdpInfo) (ssrc : UInt32) : Prop :=
  (info.videoRtxSsrcMap.find ssrc).isSome ∨ ssrc ∈ info.videoSsrcList

/-- After the lines the streams that they name are known. Streams stay known, and lines
whose streams are known leave the list as it is. -/
structure SsrcStep (loop : Loop) (ssrcs : List UInt32) (loop' : Loop) : Prop where
  known : ∀ ssrc ∈ ssrcs, loop'.info.Knows ssrc
  mono : ∀ ssrc, loop.info.Knows ssrc → loop'.info.Knows ssrc
  fixed : (∀ ssrc ∈ ssrcs, loop.info.Knows ssrc) →
    loop'.info.videoSsrcList = loop.info.videoSsrcList

section Ssrcs

variable {rtx : StdMap UInt32 UInt32} {list ssrcs : List UInt32} {ssrc : UInt32}

theorem maybeAddSsrcToList_eq (rtx : StdMap UInt32 UInt32) (list : List UInt32) (ssrc : UInt32) :
    maybeAddSsrcToList rtx list ssrc =
      if (rtx.find ssrc).isSome ∨ ssrc ∈ list then list else list ++ [ssrc] := by
  simp only [maybeAddSsrcToList, List.contains_iff_mem]

theorem mem_foldl_maybeAddSsrcToList : ssrc ∈ ssrcs.foldl (maybeAddSsrcToList rtx) list ↔
    ssrc ∈ list ∨ ssrc ∈ ssrcs ∧ ¬ (rtx.find ssrc).isSome := by
  induction ssrcs generalizing list with
  | nil => simp
  | cons s ssrcs ih =>
    rw [List.foldl_cons, ih, maybeAddSsrcToList_eq]
    split_ifs with hs
    · by_cases heq : ssrc = s
      · subst heq
        tauto
      · simp [heq]
    · by_cases heq : ssrc = s
      · subst heq
        simp_all
      · simp [heq]

theorem foldl_maybeAddSsrcToList_eq (h : ∀ s ∈ ssrcs, (rtx.find s).isSome ∨ s ∈ list) :
    ssrcs.foldl (maybeAddSsrcToList rtx) list = list := by
  induction ssrcs with
  | nil => rfl
  | cons s ssrcs ih =>
    obtain ⟨hs, hssrcs⟩ := List.forall_mem_cons.mp h
    rw [List.foldl_cons, maybeAddSsrcToList_eq, if_pos hs, ih hssrcs]

theorem isSome_addFidGroup (h : (rtx.find ssrc).isSome) :
    ((addFidGroup line mtype rtx).find ssrc).isSome := by
  rw [addFidGroup]
  split_ifs
  · split
    · rw [StdMap.find_assign]
      split_ifs
      · rfl
      · exact h
    · exact h
  · exact h

end Ssrcs

theorem on_addSsrc {rtx : StdMap UInt32 UInt32} {list list' : List UInt32}
    (h : line.on Marker.ssrctag (addSsrc line mtype rtx) list = some list') :
    ∃ ssrcs, lineSsrcs mtype line = some ssrcs ∧
      (simulcastSsrcs line mtype).foldl (maybeAddSsrcToList rtx) list' =
        ssrcs.foldl (maybeAddSsrcToList rtx) list := by
  rw [lineSsrcs, Text.on]
  rw [Text.on, addSsrc] at h
  split_ifs at h ⊢ with hm hvideo
  · obtain ⟨ssrc, hssrc, h⟩ := Option.bind_eq_some_iff.mp h
    refine ⟨[ssrc] ++ simulcastSsrcs line mtype, by rw [hssrc]; rfl, ?_⟩
    rw [← Option.some.inj h]
    rfl
  · exact ⟨simulcastSsrcs line mtype, rfl, by rw [Option.some.inj h]⟩
  · exact ⟨simulcastSsrcs line mtype, rfl, by rw [Option.some.inj h]⟩

theorem processLine_ssrcs (h : processLine loop line = some loop') :
    ∃ ssrcs, lineSsrcs loop'.mtype line = some ssrcs ∧ SsrcStep loop ssrcs loop' := by
  obtain ⟨mid, hmid, hcases⟩ := processLine_cases h
  have hs := sessionLine_step hmid
  have hmtype : loop'.mtype = mid.mtype := by rw [processLine_mtype h, hs.mtype]
  have hlist : loop'.info.videoSsrcList = mid.info.videoSsrcList ∧
      loop'.info.videoRtxSsrcMap = mid.info.videoRtxSsrcMap := by
    obtain ⟨-, rfl⟩ | ⟨-, hcodec⟩ := hcases
    · exact ⟨rfl, rfl⟩
    · obtain ⟨_, _, _, rfl⟩ := codecLine_frame hcodec
      exact ⟨rfl, rfl⟩
  obtain ⟨list, hon, hfold⟩ := hs.videoSsrcs
  obtain ⟨ssrcs, hssrcs, hall⟩ := on_addSsrc hon
  rw [hall, ← hlist.1] at hfold
  have hrtx {ssrc} (hr : (loop.info.videoRtxSsrcMap.find ssrc).isSome) :
      (loop'.info.videoRtxSsrcMap.find ssrc).isSome := by
    rw [hlist.2, hs.rtxSsrcs]
    exact isSome_addFidGroup hr
  refine ⟨ssrcs, hmtype ▸ hssrcs, fun ssrc hm => ?_, fun ssrc hk => ?_, fun hk => ?_⟩
  · by_cases hr : (loop.info.videoRtxSsrcMap.find ssrc).isSome
    · exact .inl (hrtx hr)
    · exact .inr (hfold ▸ mem_foldl_maybeAddSsrcToList.mpr (.inr ⟨hm, hr⟩))
  · exact hk.imp hrtx fun hl => hfold ▸ mem_foldl_maybeAddSsrcToList.mpr (.inl hl)
  · rw [hfold, foldl_maybeAddSsrcToList_eq hk]

theorem readLines_ssrcs (h : readLines info sdp media = some loop) :
    SsrcStep ⟨info, -1, mediaOf media⟩ (overText lineSsrcs sdp media) loop := by
  refine overText_of_run SsrcStep (fun _ => ⟨by simp, fun _ => id, fun _ => rfl⟩)
    (fun ha hb => ⟨?_, fun ssrc hk => hb.mono ssrc (ha.mono ssrc hk), ?_⟩) processLine_ssrcs h
  · intro ssrc hm
    rcases List.mem_append.mp hm with hm | hm
    · exact hb.mono ssrc (ha.known ssrc hm)
    · exact hb.known ssrc hm
  · intro hk
    rw [hb.fixed fun ssrc hm => ha.mono ssrc (hk ssrc (List.mem_append_right _ hm)),
      ha.fixed fun ssrc hm => hk ssrc (List.mem_append_left _ hm)]

/-- The usernames after some lines: the last ones, or the ones before. -/
theorem foldl_setUser (users : List (Bool × Text)) : ∃ video audio : Option Text,
    ∀ before, users.foldl setUser before = (video.getD before.1, audio.getD before.2) := by
  induction users with
  | nil => exact ⟨none, none, fun _ => rfl⟩
  | cons user users ih =>
    obtain ⟨video, audio, h⟩ := ih
    obtain ⟨isAudio, name⟩ := user
    cases isAudio with
    | true =>
      refine ⟨video, some (audio.getD name), fun before => ?_⟩
      rw [List.foldl_cons, h]
      rfl
    | false =>
      refine ⟨some (video.getD name), audio, fun before => ?_⟩
      rw [List.foldl_cons, h]
      rfl

/-- A description with credentials has credentials again, whatever there was before. -/
theorem foldl_setUser_ne {users : List (Bool × Text)}
    (h : users.foldl setUser ([], []) ≠ ([], [])) (before : Text × Text) :
    users.foldl setUser before ≠ ([], []) := by
  obtain ⟨video, audio, hlast⟩ := foldl_setUser users
  rw [hlast] at h ⊢
  intro heq
  obtain ⟨hv, ha⟩ := Prod.mk.inj heq
  refine h (Prod.ext ?_ ?_)
  · cases video with
    | none => rfl
    | some name => exact hv
  · cases audio with
    | none => rfl
    | some name => exact ha

/-- The feedback type that a write adds to a payload type. -/
def feedbackOf (pt : UInt32) : CodecWrite → List Text
  | feedback pt' type => if pt' = pt then [type] else []
  | _ => []

theorem feedbackTypes_applyAll (parsed : StdMap UInt32 RtpMap) (ws : List CodecWrite) (pt : UInt32) :
    (codecOf (applyAll parsed ws) pt).feedbackTypes =
      (codecOf parsed pt).feedbackTypes ++ ws.flatMap (feedbackOf pt) := by
  induction ws generalizing parsed with
  | nil => exact (List.append_nil _).symm
  | cons w ws ih =>
    rw [applyAll_cons, ih, List.flatMap_cons, ← List.append_assoc]
    congr 1
    rw [apply, codecOf_assign]
    by_cases hpt : pt = w.pt
    · rw [if_pos hpt]
      subst hpt
      cases w <;> simp [edit, feedbackOf, CodecWrite.pt]
    · rw [if_neg hpt]
      cases w <;> simp_all [feedbackOf, CodecWrite.pt, eq_comm]

/-- Writes without feedback types change nothing the second time. -/
theorem applyAll_again {ws : List CodecWrite} (h : ∀ w ∈ ws, ¬ w.IsFeedback)
    (parsed : StdMap UInt32 RtpMap) : applyAll (applyAll parsed ws) ws = applyAll parsed ws :=
  overwrites_apply.foldl_idem h parsed

/-- Behind the agreements, an internal list and a description agree on nothing more. -/
structure NothingMore (internal : List RtpMap) (parsed : StdMap UInt32 RtpMap)
    (agreed : Agreed) : Prop where
  media : mediaPairs internal parsed = []
  rtx : ∀ pair ∈ rtxPairs internal parsed, ∀ apts ∈ aptPair pair.1 pair.2,
    (lastWrite apts.1 agreed).getD 0 ≠ apts.2

theorem length_le_foldl_agreeRtx (agreed : Agreed) (pairs : List (RtpMap × RtpMap)) :
    agreed.length ≤ (pairs.foldl agreeRtx agreed).length := by
  induction pairs generalizing agreed with
  | nil => exact le_rfl
  | cons pair pairs ih =>
    refine le_trans ?_ (ih _)
    rw [agreeRtx]
    split
    · exact le_rfl
    · split_ifs <;> simp

/-- Pairs that add no agreement are not agreed on. -/
theorem ne_of_length_foldl_agreeRtx {agreed : Agreed} {pairs : List (RtpMap × RtpMap)}
    (h : (pairs.foldl agreeRtx agreed).length = agreed.length) :
    ∀ pair ∈ pairs, ∀ apts ∈ aptPair pair.1 pair.2,
      (lastWrite apts.1 agreed).getD 0 ≠ apts.2 := by
  induction pairs with
  | nil => simp
  | cons pair pairs ih =>
    rw [List.foldl_cons] at h
    have hle := length_le_foldl_agreeRtx (agreeRtx agreed pair) pairs
    rw [h] at hle
    have hsame : agreeRtx agreed pair = agreed ∧ ∀ apts ∈ aptPair pair.1 pair.2,
        (lastWrite apts.1 agreed).getD 0 ≠ apts.2 := by
      rw [agreeRtx] at hle ⊢
      cases hapt : aptPair pair.1 pair.2 with
      | none => exact ⟨rfl, by simp⟩
      | some apts =>
        rw [hapt] at hle
        dsimp only at hle ⊢
        split_ifs at hle ⊢ with heq
        · rw [List.length_append, List.length_singleton] at hle
          omega
        · exact ⟨rfl, by simpa using heq⟩
    rw [hsame.1] at h
    exact List.forall_mem_cons.mpr ⟨hsame.2, ih h⟩

theorem nothingMore_of_length {internal : List RtpMap} {parsed : StdMap UInt32 RtpMap}
    {agreed : Agreed} (h : (agreeOn internal parsed agreed).length = agreed.length) :
    NothingMore internal parsed agreed := by
  rw [agreeOn] at h
  have hle := length_le_foldl_agreeRtx (agreed ++ (mediaPairs internal parsed).map fun pair =>
    (pair.2.2.payloadType, pair.1.payloadType)) (rtxPairs internal parsed)
  rw [h, List.length_append, List.length_map] at hle
  have hmedia : mediaPairs internal parsed = [] := List.length_eq_zero_iff.mp (by omega)
  rw [hmedia, List.map_nil, List.append_nil] at h
  exact ⟨hmedia, ne_of_length_foldl_agreeRtx h⟩

/-- Without an agreement the first loops leave the state, whatever it is. -/
theorem matchCodec_again {internal parsed : RtpMap} {s s' : Negotiated × List RtpMap}
    (h : matchCodec internal parsed s = some s')
    (hno : ¬ (SameCodec internal parsed ∧ parsed.encodingName ≠ rtx)) (n : Negotiated) :
    matchCodec internal parsed (n, s.2) = some (n, s'.2) := by
  rw [matchCodec] at h ⊢
  by_cases hname : internal.encodingName = parsed.encodingName
  swap
  · rw [if_pos hname] at h ⊢
    rw [← Option.some.inj h]
  rw [if_neg (not_not.mpr hname)] at h ⊢
  obtain ⟨clock, hc, h⟩ := Option.bind_eq_some_iff.mp h
  obtain ⟨clock', hc', h⟩ := Option.bind_eq_some_iff.mp h
  refine Option.bind_eq_some_iff.mpr ⟨clock, hc, Option.bind_eq_some_iff.mpr ⟨clock', hc', ?_⟩⟩
  split_ifs at h ⊢ with hne hrtx
  · rw [← Option.some.inj h]
    rfl
  · rw [← Option.some.inj h]
    rfl
  · exact absurd ⟨⟨hname, by rw [hc, hc', not_not.mp hne]⟩, hrtx⟩ hno

theorem matchAll_again {pairs : List (RtpMap × UInt32 × RtpMap)} {s s' : Negotiated × List RtpMap}
    (h : pairs.foldlM (fun s pair => matchCodec pair.1 pair.2.2 s) s = some s')
    (hno : ∀ pair ∈ pairs, ¬ (SameCodec pair.1 pair.2.2 ∧ pair.2.2.encodingName ≠ rtx))
    (n : Negotiated) :
    pairs.foldlM (fun s pair => matchCodec pair.1 pair.2.2 s) (n, s.2) = some (n, s'.2) := by
  induction pairs generalizing s with
  | nil =>
    obtain rfl := Option.some.inj h
    rfl
  | cons pair pairs ih =>
    obtain ⟨mid, hmid, h⟩ := foldlM_cons_eq_some.mp h
    obtain ⟨hpair, hpairs⟩ := List.forall_mem_cons.mp hno
    exact foldlM_cons_eq_some.mpr ⟨(n, mid.2), matchCodec_again hmid hpair n, ih h hpairs⟩

/-- A pair that is not agreed on and was looked up before leaves the state. -/
theorem matchRtx_again {rtxMap internal : RtpMap} {m m' n : Negotiated}
    (h : matchRtx rtxMap internal m = some m')
    (hno : ∀ apts ∈ aptPair rtxMap internal,
      n.lookUp apts.1 ≠ apts.2 ∧ (n.outInPTMap.find apts.1).isSome) :
    matchRtx rtxMap internal n = some n := by
  rw [matchRtx_eq h]
  cases hapt : aptPair rtxMap internal with
  | none => rfl
  | some apts =>
    obtain ⟨hne, hin⟩ := hno apts hapt
    dsimp only
    rw [if_neg hne, Negotiated.touch, StdMap.insert_of_isSome hin]

/-- A negotiation behind which nothing more is agreed on leaves the state the second time. -/
theorem negotiate_again {internal : List RtpMap} {parsed : StdMap UInt32 RtpMap} {m n : Negotiated}
    {agreed : Agreed} {looked : List UInt32} (h : negotiate internal parsed m = some n)
    (hn : MapsHold agreed looked n) (hlooked : ∀ pt ∈ lookedUp internal parsed, pt ∈ looked)
    (hmore : NothingMore internal parsed agreed) : negotiate internal parsed n = some n := by
  obtain ⟨⟨mid, rtxMaps⟩, hcodecs, h⟩ := Option.bind_eq_some_iff.mp h
  rw [negotiateCodecs_eq] at hcodecs
  dsimp only at h
  have hkeep : rtxMaps = _ := (matchAll_spec hcodecs).2.1
  rw [List.nil_append] at hkeep
  have hno : ∀ pair ∈ internal ×ˢ parsed.pairs,
      ¬ (SameCodec pair.1 pair.2.2 ∧ pair.2.2.encodingName ≠ rtx) := by
    intro pair hp hsame
    have hm : pair ∈ mediaPairs internal parsed := List.mem_filter.mpr ⟨hp, decide_eq_true hsame⟩
    rw [hmore.media] at hm
    cases hm
  have hcodecs' := matchAll_again hcodecs hno n
  rw [← negotiateCodecs_eq] at hcodecs'
  refine Option.bind_eq_some_iff.mpr ⟨_, hcodecs', ?_⟩
  dsimp only
  rw [negotiateRtx_eq] at h ⊢
  refine foldlM_eq_self fun pair hp => ?_
  obtain ⟨m, m', hstep⟩ := foldlM_defined h pair hp
  refine matchRtx_again hstep fun apts hapt => ?_
  have hpair : pair ∈ rtxPairs internal parsed := by
    rw [rtxPairs, ← hkeep]
    exact hp
  rw [hn.lookUp, hn.isSome_outIn_iff]
  refine ⟨hmore.rtx pair hpair apts hapt, .inr (hlooked _ ?_)⟩
  exact List.mem_flatMap.mpr ⟨pair, hpair, by rw [hapt]; exact List.mem_singleton_self _⟩

/-- What the second call has to leave as it is: the codecs that are agreed on with their
counters and maps, the feedback types, the extensions, the tags, the streams and the
candidates. -/
structure SdpInfo.SameAs (info info' : SdpInfo) : Prop where
  negotiated : info'.toNegotiated = info.toNegotiated
  feedbackTypes (pt : UInt32) : (info'.payloadParsedMap.find pt).map (·.feedbackTypes) =
    (info.payloadParsedMap.find pt).map (·.feedbackTypes)
  extMapVector : info'.extMapVector = info.extMapVector
  bundleTags : info'.bundleTags = info.bundleTags
  videoSsrcList : info'.videoSsrcList = info.videoSsrcList
  candidateVector : info'.candidateVector = info.candidateVector

/-- A description without candidates, bundle tags, extensions and feedback types. -/
structure AppendsNothing (sdp media : Text) : Prop where
  candidates : overText lineCandidates sdp media = []
  tags : (getlines sdp).flatMap groupTags = []
  extensions : overText lineExtensions sdp media = []
  feedback : ∀ w ∈ overText codecWrites sdp media, ¬ w.IsFeedback

/-- What a call appends. -/
structure AppendStep (info : SdpInfo) (sdp media : Text) (info' : SdpInfo) : Prop where
  candidates : info'.candidateVector.length =
    info.candidateVector.length + (overText lineCandidates sdp media).length
  tags : info'.bundleTags.length =
    info.bundleTags.length + ((getlines sdp).flatMap groupTags).length
  extensions : info'.extMapVector = info.extMapVector ++ overText lineExtensions sdp media
  parsed : info'.payloadParsedMap =
    applyAll info.payloadParsedMap (overText codecWrites sdp media)
  internal : info'.internalPayloadVector = info.internalPayloadVector

theorem processSdp_appends {b : Bool} (h : info.processSdp sdp media = some (info', b)) :
    AppendStep info sdp media info' := by
  obtain ⟨loop, hloop, hcases⟩ := processSdp_cases h
  have hcand := congrArg List.length (readLines_candidates hloop)
  have hcodecs := readLines_codecs hloop
  rw [List.length_append] at hcand
  rcases hcases with ⟨-, -, rfl⟩ | ⟨-, -, negotiated, -, rfl⟩
  · exact ⟨hcand, readLines_tags hloop, readLines_extensions hloop, hcodecs.parsed, hcodecs.internal⟩
  · obtain ⟨_, _, _, _, fill, heq⟩ := fill_eq loop.info
    rw [heq]
    exact ⟨(List.length_map fill).trans hcand, readLines_tags hloop, readLines_extensions hloop,
      hcodecs.parsed, hcodecs.internal⟩

/-- If the second call appends nothing, the description appends nothing. -/
theorem AppendStep.nothing (h : AppendStep info sdp media info') (hsame : info.SameAs info') :
    AppendsNothing sdp media where
  candidates := by
    have hlength := h.candidates
    rw [hsame.candidateVector] at hlength
    exact List.length_eq_zero_iff.mp (by omega)
  tags := by
    have hlength := h.tags
    rw [hsame.bundleTags] at hlength
    exact List.length_eq_zero_iff.mp (by omega)
  extensions := List.append_right_eq_self.mp (h.extensions.symm.trans hsame.extMapVector)
  feedback := by
    intro w hw hfeedback
    cases w with
    | feedback pt type =>
      have hcodec (parsed : StdMap UInt32 RtpMap) : (codecOf parsed pt).feedbackTypes =
          ((parsed.find pt).map (·.feedbackTypes)).getD [] := by
        rw [codecOf]
        cases parsed.find pt <;> rfl
      have htypes := feedbackTypes_applyAll info.payloadParsedMap (overText codecWrites sdp media) pt
      rw [← h.parsed, hcodec, hsame.feedbackTypes, ← hcodec] at htypes
      have hnil := List.append_right_eq_self.mp htypes.symm
      have hmem : type ∈ (overText codecWrites sdp media).flatMap (feedbackOf pt) :=
        List.mem_flatMap.mpr ⟨_, hw, by simp [feedbackOf]⟩
      rw [hnil] at hmem
      cases hmem
    | rtpmap | parameter => exact hfeedback

section Twice

variable {internal : List RtpMap} {b b' : Bool}

/-- The state that a new description is left in: without credentials its loop ends the
call, and otherwise the maps hold what is agreed on. -/
theorem processSdp_new (h : (SdpInfo.new internal).processSdp sdp media = some (info, b)) :
    info.payloadParsedMap = describedCodecs sdp media ∧ info.internalPayloadVector = internal ∧
      (describedUsers sdp media = ([], []) ∧ info.users = ([], []) ∨
      describedUsers sdp media ≠ ([], []) ∧ info.videoSsrcList ≠ [] ∧
        negotiate internal (describedCodecs sdp media) {} = some info.toNegotiated ∧
        MapsHold (agreeOn internal (describedCodecs sdp media) [])
          (lookedUp internal (describedCodecs sdp media)) info.toNegotiated) := by
  have happ := processSdp_appends h
  refine ⟨happ.parsed, happ.internal, ?_⟩
  obtain ⟨loop, hloop, ⟨hno, -, rfl⟩ | ⟨hno, -, negotiated, hn, rfl⟩⟩ := processSdp_cases h
  · exact .inl ⟨(noCredentials_iff hloop).mp hno, noCredentials_iff_users.mp hno⟩
  · have hstep := readLines_codecs hloop
    rw [hstep.negotiated, hstep.internal, hstep.parsed] at hn
    have hnew : MapsHold [] [] {} := ⟨rfl, fun _ => rfl, fun _ => rfl⟩
    obtain ⟨_, _, _, _, _, heq⟩ := fill_eq loop.info
    refine .inr ⟨fun hu => hno ((noCredentials_iff hloop).mpr hu), ?_, hn, hnew.negotiate hn⟩
    rw [heq]
    dsimp only
    split_ifs with hnil
    · exact List.cons_ne_nil _ _
    · exact hnil

/-- If the second call changes nothing, it agrees on nothing more. -/
theorem nothingMore_of_sameAs (h : (SdpInfo.new internal).processSdp sdp media = some (info, b))
    (h' : info.processSdp sdp media = some (info', b')) (hsame : info.SameAs info')
    (hnothing : AppendsNothing sdp media) : describedUsers sdp media = ([], []) ∨
      NothingMore internal (describedCodecs sdp media)
        (agreeOn internal (describedCodecs sdp media) []) := by
  obtain ⟨hparsed, hinternal, ⟨hu, -⟩ | ⟨hu, -, -, hmaps⟩⟩ := processSdp_new h
  · exact .inl hu
  obtain ⟨loop, hloop, ⟨hno, -, -⟩ | ⟨-, -, negotiated, hn, rfl⟩⟩ := processSdp_cases h'
  · -- the credentials come again
    have husers := readLines_users hloop
    have hne := foldl_setUser_ne hu info.users
    rw [← husers] at hne
    exact absurd (noCredentials_iff_users.mp hno) hne
  · have hstep := readLines_codecs hloop
    rw [hstep.negotiated, hstep.internal, hstep.parsed, hparsed, hinternal, describedCodecs,
      applyAll_again hnothing.feedback] at hn
    have hmaps' := hmaps.negotiate hn
    have hlength := congrArg List.length hmaps.vector
    have hlength' := congrArg List.length hmaps'.vector
    rw [List.length_map, List.length_map] at hlength hlength'
    rw [show negotiated = info.toNegotiated from hsame.negotiated, hlength] at hlength'
    exact .inr (nothingMore_of_length hlength'.symm)

/-- The streams that a description names are known after the call. -/
theorem processSdp_knows (h : info.processSdp sdp media = some (info', b)) :
    ∀ ssrc ∈ overText lineSsrcs sdp media, info'.Knows ssrc := by
  intro ssrc hm
  obtain ⟨loop, hloop, ⟨-, -, rfl⟩ | ⟨-, -, negotiated, -, rfl⟩⟩ := processSdp_cases h
  · exact (readLines_ssrcs hloop).known ssrc hm
  · obtain ⟨_, _, _, _, _, heq⟩ := fill_eq loop.info
    rw [heq]
    refine ((readLines_ssrcs hloop).known ssrc hm).imp_right fun hl => ?_
    rwa [if_neg (List.ne_nil_of_mem hl)]

theorem AppendsNothing.candidateVector_eq_nil (hnothing : AppendsNothing sdp media)
    (h : (SdpInfo.new internal).processSdp sdp media = some (info, b)) :
    info.candidateVector = [] := by
  rw [← List.length_eq_zero_iff, (processSdp_appends h).candidates, hnothing.candidates]
  rfl

/-- The lines of a description that appends nothing can be read again and leave what the
first call left. -/
theorem readLines_again (h : (SdpInfo.new internal).processSdp sdp media = some (info, b))
    (hnothing : AppendsNothing sdp media) :
    ∃ loop, readLines info sdp media = some loop ∧ info.SameAs loop.info ∧
      loop.info.payloadParsedMap = info.payloadParsedMap := by
  have happ := processSdp_appends h
  have htags : info.bundleTags = [] := by
    rw [← List.length_eq_zero_iff, happ.tags, hnothing.tags]
    rfl
  obtain ⟨first, hfirst, -⟩ := processSdp_cases h
  have hagain : Again ⟨SdpInfo.new internal, -1, mediaOf media⟩ ⟨info, -1, mediaOf media⟩ :=
    ⟨rfl, fun _ => rfl, htags⟩
  obtain ⟨loop, hloop, hlast⟩ :=
    hagain.foldlM (List.flatMap_eq_nil_iff.mp hnothing.tags) hfirst
  change readLines info sdp media = some loop at hloop
  have hcodecs := readLines_codecs hloop
  have hparsed : loop.info.payloadParsedMap = info.payloadParsedMap := by
    rw [hcodecs.parsed, happ.parsed, applyAll_again hnothing.feedback]
  refine ⟨loop, hloop, ⟨hcodecs.negotiated, fun pt => by rw [hparsed], ?_, ?_, ?_, ?_⟩, hparsed⟩
  · rw [readLines_extensions hloop, hnothing.extensions, List.append_nil]
  · rw [hlast.tags, htags]
  · exact (readLines_ssrcs hloop).fixed (processSdp_knows h)
  · rw [readLines_candidates hloop, hnothing.candidates, List.append_nil]

/-- If the description appends nothing and nothing more is agreed on, the second call
changes nothing. -/
theorem sameAs_of_nothing (h : (SdpInfo.new internal).processSdp sdp media = some (info, b))
    (hnothing : AppendsNothing sdp media) (hmore : describedUsers sdp media = ([], []) ∨
      NothingMore internal (describedCodecs sdp media)
        (agreeOn internal (describedCodecs sdp media) [])) :
    ∃ info' b', info.processSdp sdp media = some (info', b') ∧ info.SameAs info' := by
  obtain ⟨loop, hloop, hsame, hparsedAgain⟩ := readLines_again h hnothing
  obtain ⟨hparsed, hinternal, ⟨hu, husers⟩ | ⟨hu, hssrcs, hfirst, hmaps⟩⟩ := processSdp_new h
  · have hno : loop.info.NoCredentials := by
      rw [noCredentials_iff_users, readLines_users hloop, husers]
      exact hu
    rw [processSdp_of_readLines hloop, if_pos hno]
    exact ⟨loop.info, false, rfl, hsame⟩
  · have hno : ¬ loop.info.NoCredentials := by
      rw [noCredentials_iff_users, readLines_users hloop]
      exact foldl_setUser_ne hu info.users
    have hagain := negotiate_again hfirst hmaps (fun _ => id) (hmore.resolve_left hu)
    have hstep := readLines_codecs hloop
    obtain ⟨_, _, _, _, fill, heq⟩ := fill_eq loop.info
    rw [processSdp_of_readLines hloop, if_neg hno, hstep.internal, hinternal, hparsedAgain, hparsed,
      hstep.negotiated, hagain, heq]
    refine ⟨_, true, rfl, rfl, hsame.feedbackTypes, hsame.extMapVector, hsame.bundleTags, ?_, ?_⟩
    · rw [hsame.videoSsrcList, if_neg hssrcs]
    · rw [hsame.candidateVector, hnothing.candidateVector_eq_nil h]
      rfl

/-- The second call with a description changes nothing if and only if the description has
no candidates, bundle tags, extensions and feedback types, and has no credentials or
agrees on nothing more. -/
theorem initWithSdp_twice_iff (h : (SdpInfo.new internal).initWithSdp sdp media = some (info, b)) :
    (∃ info' b', info.initWithSdp sdp media = some (info', b') ∧ info.SameAs info') ↔
      AppendsNothing sdp media ∧ (describedUsers sdp media = ([], []) ∨
        NothingMore internal (describedCodecs sdp media)
          (agreeOn internal (describedCodecs sdp media) [])) := by
  constructor
  · rintro ⟨info', b', h', hsame⟩
    have hnothing := (processSdp_appends h').nothing hsame
    exact ⟨hnothing, nothingMore_of_sameAs h h' hsame hnothing⟩
  · rintro ⟨hnothing, hmore⟩
    exact sameAs_of_nothing h hnothing hmore

theorem initWithSdp_twice_iff_vp8 : ∃ info,
    (SdpInfo.new vp8WithRtx).initWithSdp vp8Offer [] = some (info, true) ∧
      ((∃ info' b', info.initWithSdp vp8Offer [] = some (info', b') ∧ info.SameAs info') ↔
        AppendsNothing vp8Offer [] ∧ (describedUsers vp8Offer [] = ([], []) ∨
          NothingMore vp8WithRtx (describedCodecs vp8Offer [])
            (agreeOn vp8WithRtx (describedCodecs vp8Offer []) []))) := by
  have hrun : ((SdpInfo.new vp8WithRtx).initWithSdp vp8Offer []).map (·.2) = some true := by
    decide +kernel
  obtain ⟨⟨info, b⟩, hrun, rfl⟩ := Option.map_eq_some_iff.mp hrun
  exact ⟨info, hrun, initWithSdp_twice_iff hrun⟩

/-- The second call with a description agrees on its codecs a second time. -/
theorem initWithSdp_twice_ne : ¬ ∀ (internal : List RtpMap) (sdp : Text) (info : SdpInfo) (b : Bool),
    (SdpInfo.new internal).initWithSdp sdp [] = some (info, b) →
      ∃ info' b', info.initWithSdp sdp [] = some (info', b') ∧ info.SameAs info' := by
  intro h
  have hrun : (((SdpInfo.new vp8WithRtx).initWithSdp vp8Offer []).bind fun first =>
      (first.1.initWithSdp vp8Offer []).map fun second =>
        (first.1.payloadVector.length, second.1.payloadVector.length)) = some (2, 4) := by
    decide
  obtain ⟨⟨info, b⟩, hfirst, hrun⟩ := Option.bind_eq_some_iff.mp hrun
  obtain ⟨info', b', hsecond, hsame⟩ := h vp8WithRtx vp8Offer info b hfirst
  rw [hsecond, Option.map_some, Option.some.injEq, Prod.mk.injEq] at hrun
  have hlength := congrArg (·.payloadVector.length) hsame.negotiated
  rw [show info'.payloadVector.length = 4 from hrun.2,
    show info.payloadVector.length = 2 from hrun.1] at hlength
  exact absurd hlength (by decide)

end Twice

end KkLicode.Sdp
