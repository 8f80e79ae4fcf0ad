import KkLicode.Base.Reassembly
import KkLicode.Media.ExternalOutput

/-! What the recorder hands to the muxer. The writer keeps the packets of one frame
and starts again where a packet is missing, so that in a run without the cases it does
not tell apart it is the assembler of frames: all it hands over are frames, and after
the streams are open every frame that has room. -/

namespace KkLicode.Media

open Base Base.Reassembly Base.Runs

/-- A packet with a payload descriptor that can be read and data behind it. -/
structure VP8Packet where
  buf : List UInt8
  payload : RTPPayloadVP8
  data : List UInt8
  parsed : RtpVP8Parser.parseVP8 (buf.drop (RtpHeader.ofBuffer buf).getHeaderLength) = some payload
  hasData : payload.data = some data

namespace VP8Packet

/-- The packet in a buffer. -/
def read (buf : List UInt8) : Option VP8Packet :=
  match hp : RtpVP8Parser.parseVP8 (buf.drop (RtpHeader.ofBuffer buf).getHeaderLength) with
  | none => none
  | some payload =>
    match hd : payload.data with
    | none => none
    | some data => some ⟨buf, payload, data, hp, hd⟩

def head (p : VP8Packet) : RtpHeader := RtpHeader.ofBuffer p.buf

/-- The first packet of a frame, which begins the first of its partitions. -/
def beginsFrame (p : VP8Packet) : Bool :=
  p.payload.beginningOfPartition && p.payload.partitionID == 0

/-- What the packets carry. -/
def content (l : List VP8Packet) : List UInt8 := l.flatMap data

/-- The packets of a frame are numbered one after the other and have one timestamp. -/
def framing : Framing VP8Packet where
  begins := beginsFrame
  ends p := p.head.marker
  follows a b := b.head.seqnum == a.head.seqnum + 1 && b.head.timestamp == a.head.timestamp
  fits l := (content l).length ≤ UNPACKAGE_BUFFER_SIZE

@[simp] theorem content_append (l m : List VP8Packet) :
    content (l ++ m) = content l ++ content m := List.flatMap_append

@[simp] theorem content_singleton (p : VP8Packet) : content [p] = p.data :=
  List.flatMap_singleton ..

end VP8Packet

namespace ExternalOutput

open VP8SearchState VP8Packet

variable (e : ExternalOutput) {payload : RTPPayloadVP8} {data : List UInt8}

/-- The buffer becomes `buffer`, if it has room. -/
def collect (buffer : List UInt8) (endOfFrame : Bool) : ExternalOutput × Bool :=
  if buffer.length ≥ UNPACKAGE_BUFFER_SIZE then
    ({ e with unpackagedBuffer := [], vp8SearchState := lookingForStart }, false)
  else if endOfFrame then
    ({ e with unpackagedBuffer := buffer, vp8SearchState := lookingForStart }, true)
  else ({ e with unpackagedBuffer := buffer, vp8SearchState := lookingForEnd }, false)

theorem copyPayload_eq (hdata : payload.data = some data) : e.copyPayload payload =
    if (e.unpackagedBuffer ++ data).length ≥ UNPACKAGE_BUFFER_SIZE then
      some ({ e with unpackagedBuffer := [], vp8SearchState := lookingForStart }, false)
    else some ({ e with unpackagedBuffer := e.unpackagedBuffer ++ data }, true) := by
  rw [copyPayload, hdata, Option.map_some, bufferCheck, List.length_append, Nat.add_comm]
  by_cases hfull : e.unpackagedBuffer.length + data.length ≥ UNPACKAGE_BUFFER_SIZE
  · rw [if_pos hfull, if_pos hfull]
    rfl
  · rw [if_neg hfull, if_neg hfull]
    rfl

/-- A packet that begins a partition: the buffer was empty, or is emptied. -/
theorem searchFrame_begin (hdata : payload.data = some data)
    (hs : payload.beginningOfPartition = true) {endOfFrame : Bool}
    (hclean : e.vp8SearchState = lookingForStart → endOfFrame = false → e.unpackagedBuffer = []) :
    e.searchFrame payload endOfFrame = some (e.collect data endOfFrame) := by
  unfold searchFrame
  rw [hs]
  by_cases hfull : UNPACKAGE_BUFFER_SIZE ≤ data.length
  all_goals
    cases hstate : e.vp8SearchState with
    | lookingForStart =>
      cases endOfFrame with
      | false => simp [copyPayload_eq _ hdata, collect, hclean hstate rfl, hfull, hstate]
      | true => simp [copyPayload_eq _ hdata, collect, resetBuffer, hfull, hstate]
    | lookingForEnd =>
      cases endOfFrame <;> simp [copyPayload_eq _ hdata, collect, resetBuffer, hfull, hstate]

/-- A packet within a frame that is collected. -/
theorem searchFrame_continue (hdata : payload.data = some data)
    (hs : payload.beginningOfPartition = false) (hstate : e.vp8SearchState = lookingForEnd)
    (endOfFrame : Bool) :
    e.searchFrame payload endOfFrame = some (e.collect (e.unpackagedBuffer ++ data) endOfFrame) := by
  unfold searchFrame
  rw [hs, hstate]
  by_cases hfull : UNPACKAGE_BUFFER_SIZE ≤ (e.unpackagedBuffer ++ data).length <;>
    cases endOfFrame <;> simp only [copyPayload_eq _ hdata, collect, hfull] <;> simp [hstate]

/-- A packet within a frame that is not collected. -/
theorem searchFrame_skip (hs : payload.beginningOfPartition = false)
    (hstate : e.vp8SearchState = lookingForStart) (endOfFrame : Bool) :
    e.searchFrame payload endOfFrame = some (e.resetBuffer, false) := by
  unfold searchFrame
  rw [hs, hstate]
  cases endOfFrame <;> rfl

variable {e} {lib : LibAv}

/-- The search is left as it is, and the stream stays open. -/
structure Keeps (e e' : ExternalOutput) : Prop where
  state : e'.vp8SearchState = e.vp8SearchState
  buffer : e'.unpackagedBuffer = e.unpackagedBuffer
  last : e'.lastVideoSequenceNumber = e.lastVideoSequenceNumber
  stream : e.videoStream ≠ none → e'.videoStream ≠ none

theorem initContext_keeps (e : ExternalOutput) (lib : LibAv) : e.Keeps (e.initContext lib).1 := by
  by_cases hopen : e.videoCodec ≠ .AV_CODEC_ID_NONE ∧ e.audioCodec ≠ .AV_CODEC_ID_NONE ∧
      e.videoStream = none ∧ e.audioStream = none
  · rw [initContext, if_pos hopen]
    have hclosed {P : Prop} (h : e.videoStream ≠ none) : P := absurd hopen.2.2.1 h
    cases lib.findEncoder e.videoCodec with
    | false => exact ⟨rfl, rfl, rfl, hclosed⟩
    | true =>
      cases haudio : lib.findEncoder e.audioCodec with
      | false => constructor <;> simp [haudio]
      | true =>
        cases lib.avioOpen <;> cases lib.writeHeader <;> constructor <;> simp [haudio]
  · rw [initContext, if_neg hopen]
    exact ⟨rfl, rfl, rfl, id⟩

/-- The writer has the packets `c` of a frame in its buffer. -/
structure Matches (e : ExternalOutput) (c : List VP8Packet) : Prop where
  state : e.vp8SearchState = lookingForEnd ↔ c ≠ []
  buffer : c ≠ [] → e.unpackagedBuffer = content c

theorem Matches.of_start (h : e.vp8SearchState = lookingForStart) : e.Matches [] where
  state := by simp [h]
  buffer h := absurd rfl h

/-- The writer has done what the assembler does with a packet. -/
structure MatchesStep (w : ExternalOutput × Bool)
    (s : List VP8Packet × List (List VP8Packet)) : Prop where
  search : w.1.Matches s.1
  out : s.2.map content = if w.2 then [w.1.unpackagedBuffer] else []
  done : w.2 = true → s.1 = []

/-- What is collected becomes that of the assembler, unless it just fills the buffer. -/
theorem collect_matches (e : ExternalOutput) {c l : List VP8Packet} {p : VP8Packet}
    {buffer : List UInt8} (hext : framing.extend c p = l) (hne : l ≠ [])
    (hbuffer : content l = buffer) (hlen : buffer.length ≠ UNPACKAGE_BUFFER_SIZE) :
    MatchesStep (e.collect buffer p.head.marker) (framing.step c p) := by
  subst hbuffer
  have hdrop : (l = [] ∨ ¬ framing.fits l = true) ↔
      (content l).length ≥ UNPACKAGE_BUFFER_SIZE := by
    rw [or_iff_right hne, show framing.fits l = decide _ from rfl, decide_eq_true_iff]
    omega
  rw [collect, Framing.step, hext]
  by_cases hfull : (content l).length ≥ UNPACKAGE_BUFFER_SIZE
  · rw [if_pos hfull, if_pos (hdrop.mpr hfull)]
    exact ⟨.of_start rfl, rfl, by rintro ⟨⟩⟩
  · rw [if_neg hfull, if_neg (mt hdrop.mp hfull), show framing.ends p = p.head.marker from rfl]
    cases p.head.marker with
    | true => exact ⟨.of_start rfl, rfl, fun _ => rfl⟩
    | false => exact ⟨⟨by simp [hne], fun _ => rfl⟩, rfl, by rintro ⟨⟩⟩

theorem collect_frame (e : ExternalOutput) (buffer : List UInt8) (endOfFrame : Bool) :
    (e.collect buffer endOfFrame).1.lastVideoSequenceNumber = e.lastVideoSequenceNumber ∧
      (e.collect buffer endOfFrame).1.videoStream = e.videoStream := by
  rw [collect]
  split_ifs <;> exact ⟨rfl, rfl⟩

theorem checkSeqNumber_frame (e : ExternalOutput) (head : RtpHeader) :
    (e.checkSeqNumber head).lastVideoSequenceNumber = head.seqnum ∧
      (e.checkSeqNumber head).videoStream = e.videoStream := by
  by_cases h : head.seqnum.toNat ≠ e.lastVideoSequenceNumber.toNat + 1 <;>
    rw [checkSeqNumber]
  · rw [if_pos h]
    dsimp only
    split_ifs <;> exact ⟨rfl, rfl⟩
  · rw [if_neg h]
    dsimp only
    split_ifs <;> exact ⟨rfl, rfl⟩

/-- Only the next number keeps what is collected, and only without a wrap. -/
theorem checkSeqNumber_search (e : ExternalOutput) (head : RtpHeader) :
    if head.seqnum.toNat = e.lastVideoSequenceNumber.toNat + 1 then
      (e.checkSeqNumber head).vp8SearchState = e.vp8SearchState ∧
        (e.checkSeqNumber head).unpackagedBuffer = e.unpackagedBuffer
    else (e.checkSeqNumber head).vp8SearchState = lookingForStart ∧
      (e.checkSeqNumber head).unpackagedBuffer = [] := by
  split_ifs with h
  · rw [checkSeqNumber, if_neg (not_not.mpr h)]
    dsimp only
    split_ifs <;> exact ⟨rfl, rfl⟩
  · rw [checkSeqNumber, if_pos h]
    dsimp only
    split_ifs <;> exact ⟨rfl, rfl⟩

theorem deliverFrame_none {head : RtpHeader} {deliver : Bool}
    (h : (e.initContext lib).1.videoStream = none) :
    e.deliverFrame lib head deliver = ((e.initContext lib).1, []) := by
  simp only [deliverFrame]
  rw [h]

theorem deliverFrame_some {head : RtpHeader} {deliver : Bool} {stream : AVStream}
    (h : (e.initContext lib).1.videoStream = some stream) :
    e.deliverFrame lib head deliver =
      if deliver then
        ((e.initContext lib).1.resetBuffer,
          [{ data := (e.initContext lib).1.unpackagedBuffer
             pts := timestampToWrite (e.initContext lib).1.firstVideoTimestamp
               (e.initContext lib).1.videoOffsetMs head.timestamp 90000 stream.timeBaseDen
             streamIndex := 0 }])
      else ((e.initContext lib).1, []) := by
  simp only [deliverFrame]
  rw [h]

/-- The end of `writeVideoData` leaves the search as it is. -/
theorem deliverFrame_frame (e : ExternalOutput) (lib : LibAv) (head : RtpHeader)
    (deliver : Bool) :
    (e.deliverFrame lib head deliver).1.vp8SearchState = e.vp8SearchState ∧
      (deliver = false → (e.deliverFrame lib head deliver).1.unpackagedBuffer =
        e.unpackagedBuffer) ∧
      (e.deliverFrame lib head deliver).1.lastVideoSequenceNumber = e.lastVideoSequenceNumber ∧
      (e.videoStream ≠ none → (e.deliverFrame lib head deliver).1.videoStream ≠ none) := by
  obtain ⟨hstate, hbuffer, hlast, hkeep⟩ := initContext_keeps e lib
  obtain hopen | ⟨stream, hopen⟩ := Option.eq_none_or_eq_some (e.initContext lib).1.videoStream
  · rw [deliverFrame_none hopen]
    exact ⟨hstate, fun _ => hbuffer, hlast, hkeep⟩
  · rw [deliverFrame_some hopen]
    split_ifs with hd
    · exact ⟨hstate, fun h => absurd hd (ne_true_of_eq_false h), hlast, hkeep⟩
    · exact ⟨hstate, fun _ => hbuffer, hlast, hkeep⟩

/-- The frames among the packets handed to the muxer. -/
def videoFrames (out : List AVPacket) : List (List UInt8) :=
  (out.filter fun pkt => pkt.streamIndex = 0).map AVPacket.data

theorem deliverFrame_out (e : ExternalOutput) (lib : LibAv) (head : RtpHeader) (deliver : Bool) :
    videoFrames (e.deliverFrame lib head deliver).2 =
      if (e.deliverFrame lib head deliver).1.videoStream = none then []
      else if deliver then [e.unpackagedBuffer]
      else [] := by
  obtain ⟨-, hbuffer, -, -⟩ := initContext_keeps e lib
  obtain hopen | ⟨stream, hopen⟩ := Option.eq_none_or_eq_some (e.initContext lib).1.videoStream
  · rw [deliverFrame_none hopen, if_pos hopen]
    rfl
  · rw [deliverFrame_some hopen]
    cases deliver with
    | true =>
      rw [if_pos rfl, if_neg (by simp [resetBuffer, hopen]), if_pos rfl, ← hbuffer]
      rfl
    | false =>
      rw [if_neg Bool.false_ne_true, if_neg (by simp [hopen])]
      rfl

end ExternalOutput

end KkLicode.Media
