import KkLicode.Sdp.Agreement
import KkLicode.Sdp.PrintedText

/-! The codecs that are read from a printed description, and what is agreed on with
them. A codec has what was written to its payload type and nothing else, so that what
is agreed on has nothing else either. -/

namespace KkLicode.Sdp

open Base Folds CodecWrite

variable {internal codecs : List RtpMap} {parsed : StdMap UInt32 RtpMap} {n n' : Negotiated}
  {codec : RtpMap} {info : SdpInfo} {w : CodecWrite} {ws : List CodecWrite} {pt : UInt32}

/-! ### What the writes leave -/

/-- The codec has what a write says. -/
def CodecWrite.Left : CodecWrite → RtpMap → Prop
  | rtpmap _ name clock mtype, codec =>
    codec.encodingName = name ∧ codec.clockRate = some clock ∧ codec.mediaType = some mtype
  | feedback _ type, codec => type ∈ codec.feedbackTypes
  | parameter _ option value, codec => codec.formatParameters.find option = some value

/-- What a codec has after a write it had before, or the write says it. -/
theorem CodecWrite.Left.of_edit {v : CodecWrite} (hpt : v.pt = w.pt) (h : w.Left (v.edit codec)) :
    w.Left codec ∨ v = w := by
  cases v with
  | rtpmap =>
    cases w with
    | rtpmap =>
      obtain ⟨hname, hclock, hmedia⟩ := h
      obtain rfl := hpt
      obtain rfl := hname
      obtain rfl := Option.some.inj hclock
      obtain rfl := Option.some.inj hmedia
      exact .inr rfl
    | feedback => exact .inl h
    | parameter => exact .inl h
  | feedback =>
    cases w with
    | rtpmap => exact .inl h
    | feedback =>
      obtain rfl := hpt
      rcases List.mem_append.mp h with h | h
      · exact .inl h
      · exact .inr (by rw [List.mem_singleton.mp h]; rfl)
    | parameter => exact .inl h
  | parameter =>
    cases w with
    | rtpmap => exact .inl h
    | feedback => exact .inl h
    | parameter =>
      obtain rfl := hpt
      rw [Left, edit, StdMap.find_assign] at h
      split_ifs at h with ho
      · exact .inr (by rw [ho, Option.some.inj h]; rfl)
      · exact .inl h

theorem CodecWrite.Left.of_applyAll (h : w.Left (codecOf (applyAll parsed ws) w.pt)) :
    w.Left (codecOf parsed w.pt) ∨ w ∈ ws := by
  induction ws generalizing parsed with
  | nil => exact .inl h
  | cons v ws ih =>
    rcases ih h with hleft | hmem
    · rw [apply, codecOf_assign] at hleft
      split_ifs at hleft with hpt
      · rcases hleft.of_edit hpt.symm with hleft | rfl
        · exact .inl (hpt ▸ hleft)
        · exact .inr List.mem_cons_self
      · exact .inl hleft
    · exact .inr (List.mem_cons_of_mem v hmem)

/-- A codec of a new description has nothing but what is written. -/
theorem CodecWrite.Left.mem (h : w.Left (codecOf (applyAll .empty ws) w.pt)) : w ∈ ws := by
  rcases h.of_applyAll with hnew | hmem
  · cases w with
    | rtpmap => cases hnew.2.1
    | feedback => cases hnew
    | parameter => cases hnew
  · exact hmem

/-- The payload types of the map are the ones that were written to. -/
theorem find_applyAll_isSome : ((applyAll parsed ws).find pt).isSome ↔
    (parsed.find pt).isSome ∨ ∃ w ∈ ws, w.pt = pt := by
  induction ws generalizing parsed with
  | nil => simp
  | cons w ws ih =>
    rw [applyAll_cons, ih, apply, StdMap.find_assign, List.exists_mem_cons_iff]
    by_cases hpt : pt = w.pt
    · simp [hpt]
    · simp [hpt, Ne.symm hpt]

/-- A codec has a name, a clock rate and a media type once they are written. -/
def Named (codec : RtpMap) : Prop := codec.clockRate.isSome ∧ codec.mediaType.isSome

theorem Named.edit (h : Named codec) (w : CodecWrite) : Named (w.edit codec) := by
  cases w with
  | rtpmap => exact ⟨rfl, rfl⟩
  | feedback => exact h
  | parameter => exact h

theorem Named.applyAll (h : Named (codecOf parsed pt)) : Named (codecOf (applyAll parsed ws) pt) := by
  induction ws generalizing parsed with
  | nil => exact h
  | cons w ws ih =>
    refine ih ?_
    rw [apply, codecOf_assign]
    split_ifs with hpt
    · exact Named.edit (hpt ▸ h) w
    · exact h

theorem named_of_mem {name : Text} {clock : UInt32} {mtype : MediaType}
    (h : rtpmap pt name clock mtype ∈ ws) : Named (codecOf (applyAll parsed ws) pt) := by
  induction ws generalizing parsed with
  | nil => cases h
  | cons w ws ih =>
    rcases List.mem_cons.mp h with rfl | h
    · rw [applyAll_cons]
      refine Named.applyAll ?_
      rw [apply, codecOf_assign, if_pos (show pt = (rtpmap pt name clock mtype).pt from rfl)]
      exact ⟨rfl, rfl⟩
    · exact ih h

/-! ### The map of a printed description -/

/-- What the codecs of all sections write. -/
def SdpInfo.allWrites (info : SdpInfo) : List CodecWrite :=
  (if info.hasAudio then (info.codecsOf .audio).flatMap (printedWrites .audio) else []) ++
    if info.hasVideo then (info.codecsOf .video).flatMap (printedWrites .video) else []

def SdpInfo.printedMap (info : SdpInfo) : StdMap UInt32 RtpMap := applyAll .empty info.allWrites

theorem SdpInfo.mem_allWrites : w ∈ info.allWrites ↔
    (∃ codec ∈ if info.hasAudio then info.codecsOf .audio else [], w ∈ printedWrites .audio codec) ∨
      ∃ codec ∈ if info.hasVideo then info.codecsOf .video else [], w ∈ printedWrites .video codec := by
  rw [allWrites, List.mem_append]
  split_ifs <;> simp [List.mem_flatMap]

theorem SdpInfo.exists_of_mem_allWrites (h : w ∈ info.allWrites) :
    ∃ codec ∈ info.printedCodecs, ∃ mtype, w ∈ printedWrites mtype codec := by
  rcases mem_allWrites.mp h with ⟨codec, hc, hw⟩ | ⟨codec, hc, hw⟩
  · exact ⟨codec, List.mem_append_left _ hc, _, hw⟩
  · exact ⟨codec, List.mem_append_right _ hc, _, hw⟩

theorem SdpInfo.rtpmap_mem_allWrites (h : codec ∈ info.printedCodecs) : ∃ mtype,
    rtpmap codec.payloadType codec.encodingName (codec.clockRate.getD 0) mtype ∈ info.allWrites := by
  rcases List.mem_append.mp h with hc | hc
  · exact ⟨.audio, mem_allWrites.mpr (.inl ⟨codec, hc, List.mem_cons_self⟩)⟩
  · exact ⟨.video, mem_allWrites.mpr (.inr ⟨codec, hc, List.mem_cons_self⟩)⟩

/-- A write of a codec is the one of its `rtpmap` line, of a feedback type or of a parameter. -/
theorem printedWrites_cases {mtype : MediaType} (h : w ∈ printedWrites mtype codec) :
    w = rtpmap codec.payloadType codec.encodingName (codec.clockRate.getD 0) mtype ∨
      (∃ type ∈ codec.feedbackTypes, w = feedback codec.payloadType type.dropLast) ∨
        ∃ printed ∈ codec.formatParameters.pairs, ∃ option value,
          w = parameter codec.payloadType option value ∧
            (parameterText (option, value)).length < (parameterText printed).length := by
  rcases List.mem_cons.mp h with rfl | h
  · exact .inl rfl
  rcases List.mem_append.mp h with h | h
  · obtain ⟨type, ht, rfl⟩ := List.mem_map.mp h
    exact .inr (.inl ⟨type, ht, rfl⟩)
  · obtain ⟨printed, hp, hw⟩ := List.mem_flatMap.mp h
    rw [fmtpWrites, parameterWrites, Text.on, if_pos ⟨[], _, (List.append_assoc _ _ _).symm⟩] at hw
    split_ifs at hw
    · cases hw
    cases hparse : parseFmtp (SdpInfo.parameterLine codec.payloadType printed) with
    | none => simp [hparse] at hw
    | some parsed =>
      obtain ⟨pt, option, value⟩ := parsed
      obtain rfl := pt_parseFmtp hparse
      simp only [hparse, Option.bind_eq_bind, Option.bind_some, Option.pure_def, List.nil_append,
        Option.getD_some, List.mem_singleton] at hw
      exact .inr (.inr ⟨printed, hp, option, value, hw, length_parseFmtp hparse⟩)

theorem pt_printedWrites {mtype : MediaType} (h : w ∈ printedWrites mtype codec) :
    w.pt = codec.payloadType := by
  obtain rfl | ⟨_, -, rfl⟩ | ⟨_, -, _, _, rfl, -⟩ := printedWrites_cases h <;> rfl

theorem keyed_printedMap (info : SdpInfo) : Keyed info.printedMap := keyed_empty.applyAll _

variable {entry : RtpMap}

theorem codecOf_of_find (h : parsed.find pt = some entry) : codecOf parsed pt = entry := by
  rw [codecOf, h]
  rfl

theorem mem_of_left (h : info.printedMap.find w.pt = some entry) (hw : w.Left entry) :
    w ∈ info.allWrites :=
  CodecWrite.Left.mem (by rwa [show codecOf (applyAll .empty info.allWrites) w.pt = entry from
    codecOf_of_find h])

/-- A codec that is printed is in the map. -/
theorem find_printedMap (h : codec ∈ info.printedCodecs) :
    (info.printedMap.find codec.payloadType).isSome := by
  obtain ⟨mtype, hmem⟩ := SdpInfo.rtpmap_mem_allWrites h
  exact find_applyAll_isSome.mpr (.inr ⟨_, hmem, rfl⟩)

theorem named_printedMap (h : info.printedMap.find pt = some entry) : Named entry := by
  obtain hnew | ⟨w, hw, rfl⟩ := find_applyAll_isSome.mp (Option.isSome_of_eq_some h)
  · cases hnew
  obtain ⟨codec, hc, mtype, hmem⟩ := SdpInfo.exists_of_mem_allWrites hw
  obtain ⟨mtype, hrtpmap⟩ := SdpInfo.rtpmap_mem_allWrites hc
  rw [pt_printedWrites hmem] at h
  rw [← codecOf_of_find h]
  exact named_of_mem hrtpmap

/-- The name and the clock rate of an entry are the ones of a codec that is printed. -/
theorem exists_printed (hclock : ∀ codec ∈ info.printedCodecs, codec.clockRate.isSome)
    (h : info.printedMap.find pt = some entry) : ∃ codec ∈ info.printedCodecs,
      codec.payloadType = pt ∧ SameCodec codec entry := by
  obtain ⟨hc, hm⟩ := named_printedMap h
  obtain ⟨clock, hc⟩ := Option.isSome_iff_exists.mp hc
  obtain ⟨mtype, hm⟩ := Option.isSome_iff_exists.mp hm
  have hmem := @mem_of_left _ (.rtpmap pt entry.encodingName clock mtype) _ h ⟨rfl, hc, hm⟩
  obtain ⟨codec, hcodec, mtype, hw⟩ := SdpInfo.exists_of_mem_allWrites hmem
  refine ⟨codec, hcodec, (pt_printedWrites hw).symm, ?_⟩
  obtain ⟨clock', hclock'⟩ := Option.isSome_iff_exists.mp (hclock codec hcodec)
  obtain heq | ⟨_, -, heq⟩ | ⟨_, -, _, _, heq, -⟩ := printedWrites_cases hw
  · rw [hclock', Option.getD_some, rtpmap.injEq] at heq
    obtain ⟨-, hname, rfl, -⟩ := heq
    exact ⟨hname.symm, hclock'.trans hc.symm⟩
  · cases heq
  · cases heq

/-- The feedback types of an entry are the ones of codecs that are printed, without their
last character. -/
theorem feedback_printedMap {type : Text} (h : info.printedMap.find pt = some entry)
    (ht : type ∈ entry.feedbackTypes) : ∃ codec ∈ info.printedCodecs,
      ∃ type' ∈ codec.feedbackTypes, type = type'.dropLast := by
  have hmem := @mem_of_left _ (.feedback pt type) _ h ht
  obtain ⟨codec, hcodec, mtype, hw⟩ := SdpInfo.exists_of_mem_allWrites hmem
  obtain heq | ⟨type', htype', heq⟩ | ⟨_, -, _, _, heq, -⟩ := printedWrites_cases hw
  · cases heq
  · exact ⟨codec, hcodec, type', htype', (feedback.inj heq).2⟩
  · cases heq

/-- Its parameters are shorter than ones that are printed. -/
theorem parameter_printedMap {option value : Text} (h : info.printedMap.find pt = some entry)
    (hv : entry.formatParameters.find option = some value) : ∃ codec ∈ info.printedCodecs,
      ∃ printed ∈ codec.formatParameters.pairs,
        (parameterText (option, value)).length < (parameterText printed).length := by
  have hmem := @mem_of_left _ (.parameter pt option value) _ h hv
  obtain ⟨codec, hcodec, mtype, hw⟩ := SdpInfo.exists_of_mem_allWrites hmem
  obtain heq | ⟨_, -, heq⟩ | ⟨printed, hp, _, _, heq, hlt⟩ := printedWrites_cases hw
  · cases heq
  · cases heq
  · obtain ⟨-, rfl, rfl⟩ := parameter.inj heq
    exact ⟨codec, hcodec, printed, hp, hlt⟩

/-! ### What is agreed on -/

/-- A codec is the one of an entry and has nothing that the entry does not have. -/
structure Within (parsed : StdMap UInt32 RtpMap) (codec entry : RtpMap) : Prop where
  found : parsed.find codec.payloadType = some entry
  name : codec.encodingName = entry.encodingName
  clockRate : codec.clockRate = entry.clockRate
  feedback : ∀ type ∈ codec.feedbackTypes, type ∈ entry.feedbackTypes
  parameters : ∀ option value, codec.formatParameters.find option = some value →
    entry.formatParameters.find option = some value

theorem Within.self (h : parsed.find entry.payloadType = some entry) : Within parsed entry entry :=
  ⟨h, rfl, rfl, fun _ => id, fun _ _ => id⟩

theorem Within.negotiateMap (h : parsed.find entry.payloadType = some entry) (internal : RtpMap) :
    Within parsed (negotiateMap internal entry) entry :=
  ⟨h, rfl, rfl, fun _ ht => (mem_commonFeedback.mp ht).2,
    fun _ _ hv => (find_commonParameters.mp hv).2⟩

/-- What is agreed on is in the description. -/
theorem negotiate_within (hkey : Keyed parsed) (h : negotiate internal parsed {} = some n') :
    ∀ codec ∈ n'.payloadVector, ∃ entry, Within parsed codec entry := by
  obtain ⟨⟨n, rtxMaps⟩, hcodecs, h⟩ := Option.bind_eq_some_iff.mp h
  rw [negotiateCodecs_eq] at hcodecs
  have hfirst : (∀ codec ∈ n.payloadVector, ∃ entry, Within parsed codec entry) ∧
      ∀ codec ∈ rtxMaps, Within parsed codec codec := by
    refine foldlM_invariant (fun s : Negotiated × List RtpMap =>
      (∀ codec ∈ s.1.payloadVector, ∃ entry, Within parsed codec entry) ∧
        ∀ codec ∈ s.2, Within parsed codec codec) ?_ hcodecs ⟨by simp, by simp⟩
    intro s s' pair hpair hstep hs
    have hfind := StdMap.mem_pairs_iff.mp (List.mem_product.mp hpair).2
    rw [← hkey hfind] at hfind
    rcases matchCodec_cases hstep with ⟨-, rfl⟩ | ⟨-, -, rfl⟩ | ⟨-, -, -, hpush, hrtx⟩
    · exact hs
    · exact ⟨hs.1, List.forall_mem_append.mpr ⟨hs.2, by simpa using Within.self hfind⟩⟩
    · rw [Negotiated.payloadVector_push hpush, hrtx, List.forall_mem_append]
      exact ⟨⟨hs.1, by simpa using ⟨pair.2.2, Within.negotiateMap hfind pair.1⟩⟩, hs.2⟩
  -- a retransmission codec is agreed on as it stands in the description
  refine foldlM_invariant (fun n : Negotiated => ∀ codec ∈ n.payloadVector, ∃ entry,
    Within parsed codec entry) (fun rtxMap hmem hstep hn => ?_) h hfirst.1
  refine foldlM_invariant (fun n : Negotiated => ∀ codec ∈ n.payloadVector, ∃ entry,
    Within parsed codec entry) (fun internalMap _ hstep hn => ?_) hstep hn
  rcases matchRtx_cases hstep with ⟨-, rfl⟩ | ⟨apt, -, -, ⟨-, hpush⟩ | ⟨-, rfl⟩⟩
  · exact hn
  · rw [Negotiated.payloadVector_push hpush]
    exact List.forall_mem_append.mpr ⟨hn, by simpa using ⟨rtxMap, hfirst.2 rtxMap hmem⟩⟩
  · exact hn

/-- Without associated payload types no retransmission codec is agreed on. -/
theorem negotiate_mediaPairs
    (hno : ∀ pt entry, parsed.find pt = some entry → entry.formatParameters.find kAssociatedPt = none)
    (h : negotiate internal parsed {} = some n') :
    n'.payloadVector = (mediaPairs internal parsed).map fun pair => negotiateMap pair.1 pair.2.2 := by
  obtain ⟨⟨n, rtxMaps⟩, hcodecs, h⟩ := Option.bind_eq_some_iff.mp h
  rw [negotiateCodecs_eq] at hcodecs
  obtain ⟨hpush, hkeep, -⟩ := matchAll_spec hcodecs
  have hrtx (rtxMap) (hm : rtxMap ∈ rtxMaps) (internalMap : RtpMap) : aptPair rtxMap internalMap = none := by
    rw [show rtxMaps = _ from hkeep, List.nil_append] at hm
    obtain ⟨pair, hp, rfl⟩ := List.mem_map.mp hm
    have hfind := StdMap.mem_pairs_iff.mp (List.mem_product.mp (List.mem_filter.mp hp).1).2
    rw [aptPair, associatedPt, hno _ _ hfind]
    split_ifs <;> rfl
  have hsame : n' = n := by
    refine foldlM_invariant (· = n) (fun rtxMap hmem hstep hn => ?_) h rfl
    refine foldlM_invariant (· = n) (fun internalMap _ hstep hn => ?_) hstep hn
    rcases matchRtx_cases hstep with ⟨-, rfl⟩ | ⟨_, _, hapt, -⟩
    · exact hn
    · rw [hrtx rtxMap hmem] at hapt
      cases hapt
  rw [hsame, Negotiated.payloadVector_pushAll hpush, List.map_map]
  rfl

/-- The clock rate of an internal codec is read where a codec of the description has its name. -/
theorem clockRate_of_negotiate (h : negotiate internal parsed {} = some n')
    (hfind : parsed.find pt = some entry) (hc : codec ∈ internal)
    (hname : codec.encodingName = entry.encodingName) : codec.clockRate.isSome := by
  obtain ⟨_, hcodecs, -⟩ := Option.bind_eq_some_iff.mp h
  rw [negotiateCodecs_eq] at hcodecs
  obtain ⟨s, s', hstep⟩ := foldlM_defined hcodecs (codec, pt, entry)
    (List.mem_product.mpr ⟨hc, StdMap.mem_pairs_iff.mpr hfind⟩)
  rw [matchCodec, if_neg (not_not.mpr hname)] at hstep
  obtain ⟨clock, hclock, -⟩ := Option.bind_eq_some_iff.mp hstep
  exact Option.isSome_of_eq_some hclock

/-- Without retransmission codecs the negotiation has a result. -/
theorem negotiate_defined (hi : ∀ codec ∈ internal, ∀ pt entry, parsed.find pt = some entry →
      codec.encodingName = entry.encodingName → codec.clockRate.isSome)
    (hp : ∀ pt entry, parsed.find pt = some entry → Named entry ∧ entry.encodingName ≠ rtx) :
    ∃ n', negotiate internal parsed {} = some n' := by
  have key (pairs : List (RtpMap × UInt32 × RtpMap)) (hpairs : ∀ pair ∈ pairs,
      pair ∈ internal ×ˢ parsed.pairs) (n : Negotiated) :
      ∃ n', pairs.foldlM (fun s pair => matchCodec pair.1 pair.2.2 s) (n, []) = some (n', []) := by
    induction pairs generalizing n with
    | nil => exact ⟨n, rfl⟩
    | cons pair pairs ih =>
      obtain ⟨hpair, hpairs⟩ := List.forall_mem_cons.mp hpairs
      obtain ⟨hint, hpar⟩ := List.mem_product.mp hpair
      obtain ⟨⟨hclock, hmedia⟩, hne⟩ := hp _ _ (StdMap.mem_pairs_iff.mp hpar)
      obtain ⟨mid, hmid⟩ : ∃ mid, matchCodec pair.1 pair.2.2 (n, []) = some (mid, []) := by
        by_cases hname : pair.1.encodingName = pair.2.2.encodingName
        swap
        · exact ⟨n, if_pos hname⟩
        obtain ⟨clock, hc⟩ := Option.isSome_iff_exists.mp
          (hi _ hint _ _ (StdMap.mem_pairs_iff.mp hpar) hname)
        obtain ⟨clock', hc'⟩ := Option.isSome_iff_exists.mp hclock
        obtain ⟨mtype, hm⟩ := Option.isSome_iff_exists.mp hmedia
        rw [matchCodec, if_neg (not_not.mpr hname), hc, hc']
        simp only [Option.bind_eq_bind, Option.bind_some, if_neg hne]
        split_ifs
        · exact ⟨n, rfl⟩
        · rw [Negotiated.push, show (negotiateMap pair.1 pair.2.2).mediaType = some mtype from hm]
          exact ⟨_, rfl⟩
      obtain ⟨n', hn'⟩ := ih hpairs mid
      exact ⟨n', foldlM_cons_eq_some.mpr ⟨_, hmid, hn'⟩⟩
  obtain ⟨n', hn'⟩ := key _ (fun _ => id) {}
  refine ⟨n', ?_⟩
  rw [negotiate, negotiateCodecs_eq, hn']
  rfl

end KkLicode.Sdp
