import KkLicode.Base.Overwrite
import KkLicode.Sdp.SdpLines

/-! What the lines say about the codecs. A line makes at most three writes to the map
of the codecs, one for each of its markers, which depend on the line and its section
alone. The map after the lines is the result of all writes in order. -/

namespace KkLicode.Sdp

open Base

/-- A write to the codec of a payload type. -/
inductive CodecWrite
  | rtpmap (pt : UInt32) (name : Text) (clock : UInt32) (mtype : MediaType)
  | feedback (pt : UInt32) (type : Text)
  | parameter (pt : UInt32) (option value : Text)
  deriving DecidableEq

namespace CodecWrite

def pt : CodecWrite → UInt32
  | rtpmap pt _ _ _ => pt
  | feedback pt _ => pt
  | parameter pt _ _ => pt

def edit : CodecWrite → RtpMap → RtpMap
  | rtpmap pt name clock mtype, codec => { codec with
      payloadType := pt
      encodingName := name
      clockRate := some clock
      mediaType := some mtype }
  | feedback _ type, codec => { codec with feedbackTypes := codec.feedbackTypes ++ [type] }
  | parameter _ option value, codec => { codec with
      formatParameters := codec.formatParameters.assign option value }

def apply (parsed : StdMap UInt32 RtpMap) (w : CodecWrite) : StdMap UInt32 RtpMap :=
  parsed.assign w.pt (w.edit (codecOf parsed w.pt))

/-- The map after the writes. -/
def applyAll (parsed : StdMap UInt32 RtpMap) (ws : List CodecWrite) : StdMap UInt32 RtpMap :=
  ws.foldl apply parsed

end CodecWrite

open CodecWrite

def rtpmapWrites (mtype : MediaType) (line : Text) : Option (List CodecWrite) :=
  line.on Marker.rtpmap (fun ws => do
    let (pt, name, clock) ← parseRtpmap line
    return ws ++ [rtpmap pt name clock mtype]) []

def feedbackWrites (line : Text) : Option (List CodecWrite) :=
  line.on Marker.rtcpfb (fun ws => do
    let (pt, type) ← parseFeedback line
    return ws ++ [feedback pt type]) []

def parameterWrites (line : Text) : Option (List CodecWrite) :=
  line.on Marker.fmtp (fun ws =>
    if FmtpSkips line then some ws else do
      let (pt, option, value) ← parseFmtp line
      return ws ++ [parameter pt option value]) []

/-- The writes of a line in a section. -/
def codecWrites (mtype : MediaType) (line : Text) : Option (List CodecWrite) :=
  if GroupSkips line mtype then some [] else do
    return (← rtpmapWrites mtype line) ++ (← feedbackWrites line) ++ (← parameterWrites line)

variable {loop loop' : Loop} {line : Text} {mtype : MediaType} {parsed : StdMap UInt32 RtpMap}

@[simp] theorem applyAll_nil : applyAll parsed [] = parsed := rfl

@[simp] theorem applyAll_cons (w : CodecWrite) (ws : List CodecWrite) :
    applyAll parsed (w :: ws) = applyAll (apply parsed w) ws := rfl

theorem applyAll_append (ws ws' : List CodecWrite) :
    applyAll parsed (ws ++ ws') = applyAll (applyAll parsed ws) ws' := List.foldl_append

theorem on_processRtpmap : line.on Marker.rtpmap (processRtpmap line mtype) parsed =
    (rtpmapWrites mtype line).map (applyAll parsed) := by
  rw [rtpmapWrites, Text.on, Text.on]
  split_ifs
  · cases h : parseRtpmap line <;> simp [processRtpmap, h, apply, edit, pt]
  · rfl

theorem on_processFeedback : line.on Marker.rtcpfb (processFeedback line) parsed =
    (feedbackWrites line).map (applyAll parsed) := by
  rw [feedbackWrites, Text.on, Text.on]
  split_ifs
  · cases h : parseFeedback line <;> simp [processFeedback, h, apply, edit, pt]
  · rfl

theorem on_processFmtp : line.on Marker.fmtp (processFmtp line) parsed =
    (parameterWrites line).map (applyAll parsed) := by
  rw [parameterWrites, Text.on, Text.on]
  split_ifs with hm hs
  · rw [processFmtp, if_pos hs]
    rfl
  · rw [processFmtp, if_neg hs]
    cases h : parseFmtp line <;> simp [apply, edit, pt]
  · rfl

theorem codecOf_assign (parsed : StdMap UInt32 RtpMap) (pt pt' : UInt32) (codec : RtpMap) :
    codecOf (parsed.assign pt codec) pt' = if pt' = pt then codec else codecOf parsed pt' := by
  rw [codecOf, StdMap.find_assign]
  split_ifs <;> rfl

/-- A write that adds a feedback type. -/
def CodecWrite.IsFeedback : CodecWrite → Prop
  | feedback _ _ => True
  | _ => False

/-- All writes but the ones of feedback types overwrite. -/
theorem overwrites_edit :
    Overwrites (fun codec w => edit w codec) (fun w : CodecWrite => ¬ w.IsFeedback) where
  idem {v} codec hv := by
    cases v with
    | rtpmap => rfl
    | feedback => exact absurd trivial hv
    | parameter => simp only [edit, StdMap.assign_assign]
  pair {v w} codec hv hw := by
    cases v with
    | feedback => exact absurd trivial hv
    | rtpmap =>
      cases w with
      | feedback => exact absurd trivial hw
      | rtpmap => exact .inr rfl
      | parameter => exact .inl rfl
    | parameter _ option =>
      cases w with
      | feedback => exact absurd trivial hw
      | rtpmap => exact .inl rfl
      | parameter _ option' =>
        by_cases ho : option = option'
        · subst ho
          exact .inr (by simp only [edit, StdMap.assign_assign])
        · exact .inl (by simp only [edit, StdMap.assign_comm _ ho])

theorem overwrites_apply : Overwrites apply (fun w : CodecWrite => ¬ w.IsFeedback) where
  idem {v} parsed hv := by
    rw [apply, apply, codecOf_assign, if_pos rfl, StdMap.assign_assign, overwrites_edit.idem _ hv]
  pair {v w} parsed hv hw := by
    by_cases hpt : v.pt = w.pt
    · have hboth (v w : CodecWrite) (hpt : v.pt = w.pt) : apply (apply parsed v) w =
          parsed.assign w.pt (w.edit (v.edit (codecOf parsed w.pt))) := by
        rw [apply, apply, codecOf_assign, if_pos hpt.symm, hpt, StdMap.assign_assign]
      rcases overwrites_edit.pair (codecOf parsed w.pt) hv hw with hcomm | hvoid
      · exact .inl (by rw [hboth v w hpt, hboth w v hpt.symm, hpt, hcomm])
      · exact .inr (by rw [hboth v w hpt, hvoid, apply])
    · refine .inl ?_
      rw [apply, apply, apply, apply, codecOf_assign, codecOf_assign, if_neg (Ne.symm hpt),
        if_neg hpt, StdMap.assign_comm _ hpt]

/-- A line that is read makes its writes. -/
theorem codecLine_parsed (hskip : ¬ GroupSkips line loop.mtype)
    (h : codecLine loop line = some loop') : ∃ ws, codecWrites loop.mtype line = some ws ∧
      loop'.info.payloadParsedMap = applyAll loop.info.payloadParsedMap ws := by
  simp only [codecLine, on_processRtpmap, on_processFeedback, on_processFmtp, Option.bind_eq_bind,
    Option.bind_eq_some_iff, Option.map_eq_some_iff, Option.pure_def, Option.some.injEq] at h
  obtain ⟨_, ⟨ws, hws, rfl⟩, _, _, _, ⟨ws', hws', rfl⟩, _, ⟨ws'', hws'', rfl⟩, rfl⟩ := h
  refine ⟨ws ++ ws' ++ ws'', ?_, ?_⟩
  · rw [codecWrites, if_neg hskip, hws, hws', hws'']
    rfl
  · rw [applyAll_append, applyAll_append]

end KkLicode.Sdp
