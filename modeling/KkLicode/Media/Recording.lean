import KkLicode.Media.FrameReassembly

/-! Runs of the recorder: video packets, with what sets the audio codec in between.
A run is the assembler of frames as long as every step is one the writer can tell apart;
the counterexamples are runs where a frame goes on past the last sequence number, where
one was complete before the streams were open, and where a frame has two partitions. -/

namespace KkLicode.Media

open Base Base.Reassembly Base.Runs

namespace ExternalOutput

open VP8SearchState VP8Packet

variable {e e' : ExternalOutput} {lib : LibAv} {c : List VP8Packet} {p : VP8Packet}

theorem searchFrame_isSome (e : ExternalOutput) {payload : RTPPayloadVP8}
    (h : payload.data.isSome) (endOfFrame : Bool) : (e.searchFrame payload endOfFrame).isSome := by
  unfold searchFrame
  split <;> simp [copyPayload, h]

theorem writeVideoData_eq {deliver : Bool}
    (h : (e.checkSeqNumber p.head).searchFrame p.payload p.head.marker = some (e', deliver)) :
    e.writeVideoData lib p.buf = some (e'.deliverFrame lib p.head deliver) := by
  rw [VP8Packet.head] at h
  simp only [writeVideoData, p.parsed, Option.bind_eq_bind, Option.bind_some, h]
  rfl

theorem writeVideoData_isSome (e : ExternalOutput) (lib : LibAv) (p : VP8Packet) :
    (e.writeVideoData lib p.buf).isSome := by
  have hdata : p.payload.data.isSome := by
    rw [p.hasData]
    rfl
  obtain ⟨⟨e', deliver⟩, h⟩ := Option.isSome_iff_exists.mp
    (searchFrame_isSome (e.checkSeqNumber p.head) hdata p.head.marker)
  rw [writeVideoData_eq h]
  rfl

theorem Keeps.trans {e'' : ExternalOutput} (h : e.Keeps e') (h' : e'.Keeps e'') : e.Keeps e'' where
  state := h'.state.trans h.state
  buffer := h'.buffer.trans h.buffer
  last := h'.last.trans h.last
  stream hopen := h'.stream (h.stream hopen)

theorem findAudioCodec_keeps (e : ExternalOutput) (payloadtype : BitVec 7) :
    e.Keeps (e.findAudioCodec payloadtype) := by
  unfold findAudioCodec
  split_ifs <;> exact ⟨rfl, rfl, rfl, id⟩

theorem queueData_keeps (e : ExternalOutput) (nowMs : ℤ) (audioSinkSSRC : UInt32) (video : Bool) :
    e.Keeps (e.queueData nowMs audioSinkSSRC video) := by
  unfold queueData
  cases e.firstDataReceived <;> cases video <;> dsimp only <;> split_ifs <;>
    exact ⟨rfl, rfl, rfl, id⟩

theorem writeAudioData_keeps (e : ExternalOutput) (lib : LibAv) (buf : List UInt8) :
    e.Keeps (e.writeAudioData lib buf).1 ∧ videoFrames (e.writeAudioData lib buf).2 = [] := by
  have hfirst : e.Keeps (if e.firstAudioTimestamp = -1 then
      { e with firstAudioTimestamp := (RtpHeader.ofBuffer buf).timestamp.toNat } else e) := by
    split_ifs <;> exact ⟨rfl, rfl, rfl, id⟩
  have hkeep := (hfirst.trans (findAudioCodec_keeps _ (RtpHeader.ofBuffer buf).payloadtype)).trans
    (initContext_keeps _ lib)
  simp only [writeAudioData]
  split
  · exact ⟨hkeep, rfl⟩
  · exact ⟨hkeep, rfl⟩

end ExternalOutput

/-- What reaches the writer, or sets what it reads. -/
inductive Event where
  | video (p : VP8Packet)
  | audio (buf : List UInt8)
  | queued (nowMs : ℤ) (audioSinkSSRC : UInt32) (video : Bool)

/-- The recorder, and the video packets it was given. -/
structure Recording where
  output : ExternalOutput
  received : List VP8Packet := []

namespace Recording

open VP8SearchState VP8Packet ExternalOutput

variable (lib : LibAv) (r : Recording) {c : List VP8Packet} {p : VP8Packet}

/-- A new recorder; its last sequence number is not set. -/
def new (lastVideoSequenceNumber : UInt16) : Recording :=
  { output := { lastVideoSequenceNumber := lastVideoSequenceNumber } }

def step : Event → Recording × List AVPacket
  | .video p =>
    let w := (r.output.writeVideoData lib p.buf).get (writeVideoData_isSome r.output lib p)
    ({ output := w.1, received := r.received ++ [p] }, w.2)
  | .audio buf =>
    let w := r.output.writeAudioData lib buf
    ({ r with output := w.1 }, w.2)
  | .queued nowMs audioSinkSSRC video =>
    ({ r with output := r.output.queueData nowMs audioSinkSSRC video }, [])

/-- The video packets among the events. -/
def packets (events : List Event) : List VP8Packet :=
  events.filterMap fun
    | .video p => some p
    | _ => none

/-- The frames handed to the muxer in a run. -/
def handed (events : List Event) : List (List UInt8) :=
  collect (step lib) (fun r event => videoFrames (r.step lib event).2) r events

/-- All that is handed over are frames of the packets, and every frame is handed over that
has room in the buffer and comes after the stream is open. -/
structure Reassembles (lastVideoSequenceNumber : UInt16) (events : List Event) : Prop where
  sound : ∀ d ∈ handed lib (new lastVideoSequenceNumber) events,
    ∃ F, framing.IsFrame F ∧ F <:+: packets events ∧ d = content F
  complete : ∀ l m m', events = l ++ m ++ m' → framing.IsFrame (packets m) →
    (content (packets m)).length ≤ UNPACKAGE_BUFFER_SIZE →
    (final (step lib) (new lastVideoSequenceNumber) l).output.videoStream ≠ none →
    content (packets m) ∈ handed lib (final (step lib) (new lastVideoSequenceNumber) l) m

/-- The writer can tell the packet apart: where it begins a partition it begins a frame,
and finds nothing left in the buffer; within a frame its number is not behind a wrap, and
with the next number it has the timestamp of the packet before it; it does not just fill
the buffer. -/
def Tells : Event → Prop
  | .video p =>
    let e := r.output.checkSeqNumber p.head
    if p.payload.beginningOfPartition then
      p.payload.partitionID = 0 ∧ p.data.length ≠ UNPACKAGE_BUFFER_SIZE ∧
        (e.vp8SearchState = lookingForStart → p.head.marker = false → e.unpackagedBuffer = [])
    else
      (r.output.vp8SearchState = lookingForEnd →
        ¬ (r.output.lastVideoSequenceNumber = 65535 ∧ p.head.seqnum = 0)) ∧
      (e.vp8SearchState = lookingForEnd →
        (e.unpackagedBuffer ++ p.data).length ≠ UNPACKAGE_BUFFER_SIZE ∧
        ∀ b ∈ r.received.getLast?, p.head.timestamp = b.head.timestamp)
  | _ => True

instance (event : Event) : Decidable (r.Tells event) :=
  match event with
  | .video p =>
    inferInstanceAs (Decidable (if p.payload.beginningOfPartition = true then _ ∧ _ ∧ _ else _ ∧ _))
  | .audio _ => isTrue trivial
  | .queued .. => isTrue trivial

variable {lib r}

/-- The recorder has the packets `c` of a frame, the last of those it was given. -/
structure Collects (r : Recording) (c : List VP8Packet) : Prop where
  search : r.output.Matches c
  collected : framing.Collected c r.received
  number : ∀ b ∈ r.received.getLast?, r.output.lastVideoSequenceNumber = b.head.seqnum

/-- The last packet of those collected is the last one given. -/
theorem Collects.getLast (h : Collects r c) {b : VP8Packet} (hb : b ∈ c.getLast?) :
    b ∈ r.received.getLast? := by
  obtain rfl | ⟨-, t, ht⟩ := h.collected
  · cases hb
  · rw [← ht, List.getLast?_append, hb]
    rfl

theorem extend_begin (c : List VP8Packet) (h : p.beginsFrame = true) :
    framing.extend c p = [p] := if_pos h

/-- Within a frame that is collected the packet joins those before it. -/
theorem Collects.extend_next (h : Collects r c) (hs : p.payload.beginningOfPartition = false)
    (hnext : p.head.seqnum.toNat = r.output.lastVideoSequenceNumber.toNat + 1)
    (hstate : r.output.vp8SearchState = lookingForEnd)
    (hts : ∀ b ∈ r.received.getLast?, p.head.timestamp = b.head.timestamp) :
    framing.extend c p = c ++ [p] := by
  have hne := h.search.state.mp hstate
  have hlast := List.getLast?_eq_some_getLast hne
  have hmem := h.getLast hlast
  have hseq : p.head.seqnum = (c.getLast hne).head.seqnum + 1 := by
    rw [h.number _ hmem] at hnext
    have hlt := p.head.seqnum.toNat_lt
    apply UInt16.toNat_inj.mp
    rw [UInt16.toNat_add, hnext]
    exact (Nat.mod_eq_of_lt (hnext ▸ hlt)).symm
  have hbegins : ¬ framing.begins p = true := by
    show ¬ (p.payload.beginningOfPartition && _) = true
    rw [hs]
    exact Bool.false_ne_true
  have hfollows : framing.follows (c.getLast hne) p = true := by
    show (_ == _ && _ == _) = true
    rw [hseq, hts _ hmem, beq_self_eq_true, beq_self_eq_true]
    rfl
  rw [Framing.extend, if_neg hbegins, hlast]
  exact if_pos hfollows

/-- Elsewhere a packet within a frame is dropped. -/
theorem Collects.extend_skip (h : Collects r c) (hs : p.payload.beginningOfPartition = false)
    (hstart : (r.output.checkSeqNumber p.head).vp8SearchState = lookingForStart)
    (hwrap : r.output.vp8SearchState = lookingForEnd →
      ¬ (r.output.lastVideoSequenceNumber = 65535 ∧ p.head.seqnum = 0)) :
    framing.extend c p = [] := by
  have hbegins : ¬ framing.begins p = true := by
    show ¬ (p.payload.beginningOfPartition && _) = true
    rw [hs]
    exact Bool.false_ne_true
  rw [Framing.extend, if_neg hbegins]
  by_cases hne : c = []
  · rw [hne]
    rfl
  · have hlast := List.getLast?_eq_some_getLast hne
    have hnum := h.number _ (h.getLast hlast)
    have hend := h.search.state.mpr hne
    have hfollows : ¬ framing.follows (c.getLast hne) p = true := by
      intro hf
      have hseq : p.head.seqnum = r.output.lastVideoSequenceNumber + 1 := by
        rw [hnum]
        exact eq_of_beq (Bool.and_eq_true_iff.mp hf).1
      have hgap := checkSeqNumber_search r.output p.head
      split_ifs at hgap with hnext
      · rw [hgap.1, hend] at hstart
        cases hstart
      · have hlt := r.output.lastVideoSequenceNumber.toNat_lt
        have hval := congrArg UInt16.toNat hseq
        rw [UInt16.toNat_add] at hval
        have hmax : r.output.lastVideoSequenceNumber.toNat = 65535 := by
          by_contra hlow
          rw [Nat.mod_eq_of_lt (by rw [UInt16.toNat_one]; omega)] at hval
          exact hnext hval
        have h65535 : r.output.lastVideoSequenceNumber = 65535 := UInt16.toNat_inj.mp hmax
        exact hwrap hend ⟨h65535, by rw [hseq, h65535]; rfl⟩
    rw [hlast]
    exact if_neg hfollows

/-- The search does with a packet it can tell apart what the assembler does. -/
theorem Collects.searchFrame (h : Collects r c) (hp : r.Tells (.video p)) :
    ∃ w, (r.output.checkSeqNumber p.head).searchFrame p.payload p.head.marker = some w ∧
      MatchesStep w (framing.step c p) ∧ w.1.lastVideoSequenceNumber = p.head.seqnum ∧
      w.1.videoStream = r.output.videoStream := by
  obtain ⟨hlast, hstream⟩ := checkSeqNumber_frame r.output p.head
  have hsearch := checkSeqNumber_search r.output p.head
  cases hs : p.payload.beginningOfPartition with
  | true =>
    simp only [Tells, hs, if_true] at hp
    obtain ⟨hid, hlen, hclean⟩ := hp
    have hext : framing.extend c p = [p] := extend_begin c (by simp [beginsFrame, hs, hid])
    obtain ⟨hclast, hcstream⟩ :=
      collect_frame (r.output.checkSeqNumber p.head) p.data p.head.marker
    have hmatch := collect_matches (r.output.checkSeqNumber p.head) hext (List.cons_ne_nil p [])
      (content_singleton p) hlen
    exact ⟨_, searchFrame_begin _ p.hasData hs hclean, hmatch, hclast.trans hlast,
      hcstream.trans hstream⟩
  | false =>
    simp only [Tells, hs, Bool.false_eq_true, if_false] at hp
    obtain ⟨hwrap, hnext⟩ := hp
    cases hstate : (r.output.checkSeqNumber p.head).vp8SearchState with
    | lookingForStart =>
      refine ⟨_, searchFrame_skip _ hs hstate _, ?_, hlast, hstream⟩
      have hskip := h.extend_skip hs hstate hwrap
      rw [Framing.step, if_pos (.inl hskip)]
      exact ⟨.of_start hstate, rfl, by rintro ⟨⟩⟩
    | lookingForEnd =>
      obtain ⟨hlen, hts⟩ := hnext hstate
      split_ifs at hsearch with hseq
      · obtain ⟨hkeep, hbuffer⟩ := hsearch
        have hend : r.output.vp8SearchState = lookingForEnd := hkeep.symm.trans hstate
        have hext := h.extend_next hs hseq hend hts
        obtain ⟨hclast, hcstream⟩ := collect_frame (r.output.checkSeqNumber p.head)
          ((r.output.checkSeqNumber p.head).unpackagedBuffer ++ p.data) p.head.marker
        have hcontent := h.search.buffer (h.search.state.mp hend)
        have hmatch := collect_matches (r.output.checkSeqNumber p.head) hext (by simp)
          (by rw [content_append, content_singleton, ← hcontent, hbuffer]) hlen
        exact ⟨_, searchFrame_continue _ p.hasData hs hstate _, hmatch, hclast.trans hlast,
          hcstream.trans hstream⟩
      · rw [hsearch.1] at hstate
        cases hstate

/-- A packet the writer can tell apart. -/
theorem Collects.video (lib : LibAv) (h : Collects r c) (hp : r.Tells (.video p)) :
    Collects (r.step lib (.video p)).1 (framing.step c p).1 ∧
      (r.output.videoStream ≠ none → (r.step lib (.video p)).1.output.videoStream ≠ none) ∧
      videoFrames (r.step lib (.video p)).2 =
        if (r.step lib (.video p)).1.output.videoStream = none then []
        else (framing.step c p).2.map content := by
  obtain ⟨⟨e, deliver⟩, hw, hmatch, hlast, hstream⟩ := h.searchFrame hp
  obtain ⟨hstate, hbuffer, hkeep, hopen⟩ := deliverFrame_frame e lib p.head deliver
  have hstep : r.step lib (.video p) =
      ({ output := (e.deliverFrame lib p.head deliver).1, received := r.received ++ [p] },
        (e.deliverFrame lib p.head deliver).2) := by
    simp only [step, writeVideoData_eq hw, Option.get_some]
  rw [hstep]
  refine ⟨⟨⟨?_, fun hne => ?_⟩, Framing.step_collected h.collected, ?_⟩, ?_, ?_⟩
  · rw [hstate]
    exact hmatch.search.state
  · cases deliver with
    | true => exact absurd (hmatch.done rfl) hne
    | false => rw [hbuffer rfl, hmatch.search.buffer hne]
  · rintro b hb
    rw [List.getLast?_concat] at hb
    cases hb
    exact hkeep.trans hlast
  · intro hsome
    exact hopen (by rwa [hstream])
  · rw [deliverFrame_out, hmatch.out]

/-- What comes in between. -/
theorem Collects.keeps (h : Collects r c) {e : ExternalOutput} (hk : r.output.Keeps e) :
    Collects { r with output := e } c where
  search := ⟨by rw [hk.state]; exact h.search.state, fun hne => by
    rw [hk.buffer]
    exact h.search.buffer hne⟩
  collected := h.collected
  number b hb := hk.last.trans (h.number b hb)

/-- The recorder has done what the assembler does; before the stream is open frames may be
lost. -/
structure Follows (lib : LibAv) (r : Recording) (c : List VP8Packet) (events : List Event) :
    Prop where
  collects : Collects (final (step lib) r events) (final framing.step c (packets events))
  mem : ∀ d ∈ handed lib r events, d ∈ (framing.delivered c (packets events)).map content
  eq : r.output.videoStream ≠ none →
    handed lib r events = (framing.delivered c (packets events)).map content

theorem Follows.video {events : List Event} (h : Collects r c) (hp : r.Tells (.video p))
    (hf : Follows lib (r.step lib (.video p)).1 (framing.step c p).1 events) :
    Follows lib r c (.video p :: events) := by
  obtain ⟨-, hopen, hout⟩ := h.video lib hp
  have hhanded : handed lib r (.video p :: events) =
      videoFrames (r.step lib (.video p)).2 ++ handed lib (r.step lib (.video p)).1 events := rfl
  have hdelivered : (framing.delivered c (packets (.video p :: events))).map content =
      (framing.step c p).2.map content ++
        (framing.delivered (framing.step c p).1 (packets events)).map content :=
    List.map_append
  refine ⟨hf.collects, fun d hd => ?_, fun hsome => ?_⟩
  · rw [hhanded, hout] at hd
    rw [hdelivered]
    rcases List.mem_append.mp hd with hd | hd
    · split_ifs at hd
      · cases hd
      · exact List.mem_append_left _ hd
    · exact List.mem_append_right _ (hf.mem d hd)
  · rw [hhanded, hdelivered, hout, if_neg (hopen hsome), hf.eq (hopen hsome)]

theorem Collects.run {events : List Event} (h : Collects r c)
    (hs : Steps (step lib) Tells r events) : Follows lib r c events := by
  induction events generalizing r c with
  | nil => exact ⟨h, fun d hd => absurd hd List.not_mem_nil, fun _ => rfl⟩
  | cons event events ih =>
    obtain ⟨hp, hs⟩ := hs
    cases event with
    | video p => exact .video h hp (ih (h.video lib hp).1 hs)
    | audio buf =>
      obtain ⟨hkeeps, hout⟩ := writeAudioData_keeps r.output lib buf
      obtain ⟨hfinal, hmem, heq⟩ := ih (h.keeps hkeeps) hs
      have hhanded : handed lib r (.audio buf :: events) =
          handed lib { r with output := (r.output.writeAudioData lib buf).1 } events := by
        show videoFrames (r.output.writeAudioData lib buf).2 ++ _ = _
        rw [hout]
        rfl
      rw [← hhanded] at hmem heq
      exact ⟨hfinal, hmem, fun hsome => heq (hkeeps.stream hsome)⟩
    | queued nowMs audioSinkSSRC video =>
      have hkeeps := queueData_keeps r.output nowMs audioSinkSSRC video
      obtain ⟨hfinal, hmem, heq⟩ := ih (h.keeps hkeeps) hs
      exact ⟨hfinal, hmem, fun hsome => heq (hkeeps.stream hsome)⟩

theorem collects_new (lastVideoSequenceNumber : UInt16) :
    Collects (new lastVideoSequenceNumber) [] :=
  ⟨.of_start rfl, .inl rfl, fun _ h => nomatch h⟩

/-- A packet with one byte behind its descriptor. -/
def packet (seqnum : UInt16) (marker : Bool) (descriptor b : UInt8) : Option VP8Packet :=
  VP8Packet.read (({ marker := marker, seqnum := seqnum : RtpHeader }).fixed ++ [descriptor, b])

/-- Everything works, and the time bases are those of milliseconds. -/
def libWorks : LibAv where
  findEncoder _ := true
  avioOpen := true
  writeHeader := some (1000, 1000)

def videos (packets : List (Option VP8Packet)) : List Event :=
  packets.filterMap (Option.map .video)

end Recording

end KkLicode.Media
